import PackPlan.Text.Printable

/-!
# Quoted text

The form in which a diagnostic quotes text: between quotes, with everything that is
not printable written as an escape.

## Main definitions

* `Text.quoteMark` — the quote that surrounds a text
* `Text.escapeChar` — how one character stands inside the quotes
* `Text.quoted` — the quoted form of a text
-/

namespace PackPlan.Text

/-- The last `width` hexadecimal digits of a number. -/
def hexPadded (width n : Nat) : List Char :=
  (List.range width).map fun i => (n / Nat.pow 16 (width - 1 - i) % 16).digitChar

/-- Text is quoted by apostrophes, unless it holds one and no quotation mark. -/
def quoteMark (s : List Char) : Char :=
  if '\'' ∈ s ∧ '"' ∉ s then '"' else '\''

/-- How a character stands between quotes of the given kind. -/
def escapeChar (mark c : Char) : List Char :=
  if c = mark ∨ c = '\\' then ['\\', c]
  else if c = '\n' then ['\\', 'n']
  else if c = '\r' then ['\\', 'r']
  else if c = '\t' then ['\\', 't']
  else if isPrintable c then [c]
  else if c.toNat ≤ 0xff then '\\' :: 'x' :: hexPadded 2 c.toNat
  else if c.toNat ≤ 0xffff then '\\' :: 'u' :: hexPadded 4 c.toNat
  else '\\' :: 'U' :: hexPadded 8 c.toNat

/-- The quoted form of a text. -/
def quoted (s : List Char) : List Char :=
  quoteMark s :: s.flatMap (escapeChar (quoteMark s)) ++ [quoteMark s]

/-- The quoted form of a string. -/
def quote (s : String) : String := String.ofList (quoted s.toList)

end PackPlan.Text
