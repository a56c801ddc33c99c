/-!
# Binary floating-point numbers

Numbers of 53 significant bits, read from decimal notation by rounding to the nearest
and written with the fewest digits that read back. Everything is computed in whole
numbers.

## Main definitions

* `PackPlan.Binary64` — a number, an infinity, or no number
* `Binary64.ofDecimal` — the number nearest to a decimal
* `Binary64.shortest` — the fewest digits that read back
* `Binary64.text` — the written form
-/

namespace PackPlan

/-- A floating-point number. -/
inductive Binary64
  /-- A whole number of less than 54 bits times a power of two. -/
  | finite (negative : Bool) (significand : Nat) (exponent : Int)
  /-- A number beyond the greatest finite one. -/
  | infinite (negative : Bool)
  /-- No number. -/
  | nan
  deriving DecidableEq, Repr

namespace Binary64

/-- The least exponent. -/
def minExponent : Int := -1074

/-- The greatest exponent. -/
def maxExponent : Int := 971

/-- A quotient rounded to the nearest whole number, a half to the even one. -/
def roundDiv (num den : Nat) : Nat :=
  let q := num / den
  let twice := 2 * (num % den)
  if den < twice ∨ (twice = den ∧ q % 2 = 1) then q + 1 else q

-- powers are named functions, as `^` stands for another one where algebra is imported

/-- A power with a whole exponent, as numerator and denominator. -/
def powRatio (base : Nat) (e : Int) : Nat × Nat := (base.pow e.toNat, base.pow (-e).toNat)

/-- The exponent at which a positive quotient has 53 bits, or the least exponent. -/
def exponentFor (num den : Nat) : Int :=
  let guess : Int := (num.log2 : Int) - den.log2 - 52
  let (up, down) := powRatio 2 guess
  max minExponent (if num * down < Nat.pow 2 52 * (den * up) then guess - 1 else guess)

/-- The floating-point number nearest to a quotient. -/
def ofRatio (negative : Bool) (num den : Nat) : Binary64 :=
  if num = 0 then .finite negative 0 minExponent
  else
    let e := exponentFor num den
    let (up, down) := powRatio 2 e
    let m := roundDiv (num * down) (den * up)
    -- rounding up may have carried into a bit of its own
    let (m, e) := if m = Nat.pow 2 53 then (Nat.pow 2 52, e + 1) else (m, e)
    if maxExponent < e then .infinite negative else .finite negative m e

/-- The floating-point number nearest to digits times a power of ten. Exponents that
are out of all proportion are not worked out. -/
def ofDecimal (negative : Bool) (digits : Nat) (exponent : Int) : Binary64 :=
  let magnitude : Int := (Nat.toDigits 10 digits).length + exponent
  if digits = 0 ∨ magnitude < -400 then .finite negative 0 minExponent
  else if 400 < magnitude then .infinite negative
  else
    let (num, den) := powRatio 10 exponent
    ofRatio negative (digits * num) den

/-! ### Writing -/

/-- The numbers that round to a significand at an exponent reach from `low` to `high`,
ends included when the significand is even; all in quarters of the last place. -/
structure Reach where
  /-- The lower end. -/
  low : Nat
  /-- The number itself. -/
  mid : Nat
  /-- The upper end. -/
  high : Nat
  /-- Whether the ends belong to it. -/
  closed : Bool

/-- The reach of a number. Below a power of two neighbours are half as far away. -/
def reach (m : Nat) (e : Int) : Reach :=
  ⟨4 * m - (if m = Nat.pow 2 52 ∧ minExponent < e then 1 else 2), 4 * m, 4 * m + 2, m % 2 = 0⟩

/-- The power of ten next above a positive quotient. -/
def decimalPlace (num den : Nat) : Int :=
  if den ≤ num then (Nat.toDigits 10 (num / den)).length
  else match (List.range 400).find? fun j => den ≤ num * Nat.pow 10 (j + 1) with
    | some j => -(j : Int)
    | none => 0

/-- The decimal of `count` digits within reach and nearest to the number, as digits
and place, if there is one. The number is `mid * up / down`. -/
def decimalWithin? (r : Reach) (up down : Nat) (place : Int) (count : Nat) : Option Nat :=
  let (gridUp, gridDown) := powRatio 10 (place - count)
  let scale := down * gridUp
  let low := r.low * up * gridDown
  let mid := r.mid * up * gridDown
  let high := r.high * up * gridDown
  let reached := fun d =>
    if r.closed then low ≤ d * scale ∧ d * scale ≤ high else low < d * scale ∧ d * scale < high
  -- the decimals next to the number on either side
  let d := mid / scale
  let below := decide (reached d)
  let above := decide (reached (d + 1))
  if below && above then
    let twice := 2 * (mid - d * scale)
    some (if twice < scale ∨ (twice = scale ∧ d % 2 = 0) then d else d + 1)
  else if below then some d
  else if above then some (d + 1)
  else none

/-- The digits without zeros at their end. -/
def dropEndZeros (digits : List Char) : List Char := (digits.reverse.dropWhile (· = '0')).reverse

/-- The fewest digits that read back as a positive number, and the place of the point
after which they stand. -/
def shortest (m : Nat) (e : Int) : List Char × Int :=
  let (up, down) := powRatio 2 (e - 2)
  let r := reach m e
  let place := decimalPlace (r.mid * up) down
  let found := (List.range 17).findSome? fun i =>
    (decimalWithin? r up down place (i + 1)).map fun d => (i + 1, d)
  match found with
  | some (count, d) =>
    let digits := Nat.toDigits 10 d
    (dropEndZeros digits, place + ((digits.length : Int) - count))
  | none => (['0'], 1)

/-- The written form of digits with a place. Numbers from a ten-thousandth up to ten
to the sixteenth are written out, others with an exponent of at least two digits. -/
def layout (digits : List Char) (place : Int) : List Char :=
  if -4 < place ∧ place ≤ 16 then
    if place ≤ 0 then '0' :: '.' :: (List.replicate (-place).toNat '0' ++ digits)
    else
      let whole := digits.take place.toNat
      let rest := digits.drop place.toNat
      whole ++ List.replicate (place.toNat - digits.length) '0' ++
        '.' :: (if rest = [] then ['0'] else rest)
  else
    let mantissa := match digits with
      | d :: d' :: rest => d :: '.' :: d' :: rest
      | digits => digits
    let e := place - 1
    let power := Nat.toDigits 10 e.natAbs
    mantissa ++ 'e' :: (if e < 0 then '-' else '+') ::
      (List.replicate (2 - power.length) '0' ++ power)

/-- The written form of a floating-point number. -/
def text : Binary64 → String
  | .nan => "nan"
  | .infinite negative => if negative then "-inf" else "inf"
  | .finite negative m e =>
    let digits := if m = 0 then ['0', '.', '0'] else
      let (digits, place) := shortest m e
      layout digits place
    String.ofList (if negative then '-' :: digits else digits)

end Binary64

end PackPlan
