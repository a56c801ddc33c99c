/-!
# Written numbers

Integers as decimal or hexadecimal text. Decimal text has a ceiling on its digits:
a longer number has no decimal form at all, while hexadecimal text knows no limit.

## Main definitions

* `Numeral.maxDigits` — the most digits that decimal text may have
* `Numeral.decimalText` — decimal text, whatever its length
* `Numeral.decimal?` — decimal text within the ceiling
* `Numeral.hexText` — hexadecimal text in small letters
-/

namespace PackPlan.Numeral

/-- The most digits that a decimal number may have. -/
def maxDigits : Nat := 4300

/-- An integer as a sign, if it is negative, and the digits of its magnitude. -/
def signed (digits : Nat → List Char) : Int → List Char
  | .ofNat n => digits n
  | .negSucc n => '-' :: digits (n + 1)

/-- An integer in decimal, whatever its length. -/
def decimalText (n : Int) : List Char := signed (Nat.toDigits 10) n

/-- An integer in hexadecimal. -/
def hexText (n : Int) : List Char := signed (Nat.toDigits 16) n

/-- Whether an integer has more digits than decimal text may have. -/
def isTooLong (n : Int) : Bool := Nat.pow 10 maxDigits ≤ n.natAbs

/-- An integer in decimal, if it has no more than `maxDigits` digits. -/
def decimal? (n : Int) : Option String :=
  if isTooLong n then none else some (String.ofList (decimalText n))

end PackPlan.Numeral
