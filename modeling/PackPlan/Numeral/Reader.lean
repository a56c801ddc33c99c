import PackPlan.Numeral.Printer
import PackPlan.Text.Blank
import PackPlan.Text.Digit
import PackPlan.Text.Quoted
import PackPlan.Text.Split

/-!
# Read numbers

Integers are read liberally: blanks around them, a sign, the digits of any script,
single underscores between digits, and in hexadecimal a leading `0x`. Decimal text
longer than the ceiling is refused for its length.

## Main definitions

* `Numeral.Radix` — decimal or hexadecimal
* `Numeral.ReadFault` — why a text is no number
* `Numeral.read` — the integer that a text denotes
-/

namespace PackPlan.Numeral

/-- The bases in which numbers are read. -/
inductive Radix
  | decimal
  | hexadecimal
  deriving DecidableEq, Repr

/-- The base of a radix. -/
def Radix.base : Radix → Nat
  | .decimal => 10
  | .hexadecimal => 16

/-- Why a text is no number. -/
inductive ReadFault
  /-- The text does not have the form of a number. -/
  | malformed (radix : Radix) (text : String)
  /-- The text has too many digits. -/
  | tooManyDigits (count : Nat)
  deriving DecidableEq, Repr

/-- How much of a malformed text, in its quoted form, a message shows. -/
def shownLength : Nat := 200

/-- What is said about a text that is no number. -/
def ReadFault.message : ReadFault → String
  | .malformed radix text =>
    s!"invalid literal for int() with base {radix.base}: " ++
      String.ofList ((Text.quoted text.toList).take shownLength)
  | .tooManyDigits count =>
    s!"Exceeds the limit ({maxDigits} digits) for integer string conversion: value has {count}" ++
      " digits; use sys.set_int_max_str_digits() to increase the limit"

/-- The value of an ASCII digit or letter in base 36. -/
def glyphValue? (c : Char) : Option Nat :=
  if '0' ≤ c ∧ c ≤ '9' then some (c.toNat - '0'.toNat)
  else if 'a' ≤ c ∧ c ≤ 'z' then some (c.toNat - 'a'.toNat + 10)
  else if 'A' ≤ c ∧ c ≤ 'Z' then some (c.toNat - 'A'.toNat + 10)
  else none

/-- Whether a character is a digit of the radix. -/
def Radix.isDigit (radix : Radix) (c : Char) : Bool :=
  (glyphValue? c).any (· < radix.base)

/-- A character beyond ASCII stands for a space if it is blank and for an ASCII digit
if it is a digit; any other stands for no part of a number. -/
def plainChar (c : Char) : Char :=
  if c.toNat < 0x7f then c
  else if Text.isBlank c then ' '
  else match Text.digitValue? c with
    | some d => d.digitChar
    | none => '?'

/-- The spaces that may surround a number. -/
def isSpace (c : Char) : Bool := c = ' ' || ('\t' ≤ c && c ≤ '\r')

/-- The sign of a number and the text after it. -/
def takeSign : List Char → Bool × List Char
  | '-' :: rest => (true, rest)
  | '+' :: rest => (false, rest)
  | rest => (false, rest)

/-- A hexadecimal number may begin with `0x`, and an underscore may follow that. -/
def dropMarker : Radix → List Char → List Char
  | .hexadecimal, '0' :: x :: rest =>
    if x = 'x' ∨ x = 'X' then
      match rest with
      | '_' :: rest => rest
      | rest => rest
    else '0' :: x :: rest
  | _, s => s

/-- The value of a run of digits; underscores count for nothing. -/
def digitsValue (radix : Radix) (run : List Char) : Nat :=
  run.foldl (fun n c => if c = '_' then n else n * radix.base + (glyphValue? c).getD 0) 0

/-- Underscores stand between digits only. -/
def isSpaced (run : List Char) : Bool := (Text.splitAt '_' run).all (!·.isEmpty)

/-- The magnitude that a run of digits and what follows it denote. -/
def readMagnitude (radix : Radix) (source : String) (s : List Char) : Except ReadFault Nat :=
  let isPart := fun c => radix.isDigit c || c = '_'
  let run := s.takeWhile isPart
  let count := (run.filter (· ≠ '_')).length
  if !isSpaced run then .error (.malformed radix source)
  else if radix = .decimal ∧ maxDigits < count then .error (.tooManyDigits count)
  else if (s.dropWhile isPart).all isSpace then .ok (digitsValue radix run)
  else .error (.malformed radix source)

/-- The integer that a text denotes. -/
def read (radix : Radix) (text : String) : Except ReadFault Int := do
  let (negative, rest) := takeSign ((text.toList.map plainChar).dropWhile isSpace)
  let n ← readMagnitude radix text (dropMarker radix rest)
  return if negative then -n else n

end PackPlan.Numeral
