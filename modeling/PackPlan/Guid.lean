import PackPlan.Numeral.Reader

/-!
# Globally unique identifiers

A guid is a number of 128 bits. It has one written form, upper-case hexadecimal in
braces, grouped by hyphens; many spellings of it are read.

## Main definitions

* `PackPlan.Guid` — a guid
* `Guid.text` — its written form
* `Guid.read?` — the guid that a spelling denotes
-/

namespace PackPlan

/-- A number of 128 bits. -/
structure Guid where
  /-- The number. -/
  value : Nat
  /-- It has no more than 128 bits. -/
  value_lt : value < Nat.pow 2 128
  deriving DecidableEq

namespace Guid

-- small numbers have no more than 128 bits
theorem one_lt : 1 < Nat.pow 2 128 := by decide

theorem two_lt : 2 < Nat.pow 2 128 := by decide

theorem three_lt : 3 < Nat.pow 2 128 := by decide

/-- The guid that stands for no asset. -/
def nil : Guid := ⟨0, by decide⟩

instance : Inhabited Guid := ⟨nil⟩

/-- The lengths of the groups of digits between hyphens. -/
def groupLengths : List Nat := [8, 4, 4, 4, 12]

/-- A list cut into pieces of given lengths. -/
def cut {α : Type} : List Nat → List α → List (List α)
  | [], _ => []
  | n :: lengths, s => s.take n :: cut lengths (s.drop n)

/-- The 32 upper-case hexadecimal digits of a guid. -/
def digits (g : Guid) : List Char := (Text.hexPadded 32 g.value).map Char.toUpper

/-- The written form of a guid. -/
def textChars (g : Guid) : List Char :=
  '\x7b' :: Text.join ['-'] (cut groupLengths g.digits) ++ ['\x7d']

/-- The written form of a guid, as a string. -/
def text (g : Guid) : String := String.ofList g.textChars

/-! ### Reading -/

/-- The text without the occurrences of a word, the first `skip` characters being
the rest of an occurrence. -/
def eraseWordFrom (word : List Char) : Nat → List Char → List Char
  | _, [] => []
  | skip + 1, _ :: s => eraseWordFrom word skip s
  | 0, c :: s =>
    if word.isPrefixOf (c :: s) then eraseWordFrom word (word.length - 1) s
    else c :: eraseWordFrom word 0 s

/-- The text without the occurrences of a word. -/
def eraseWord (word s : List Char) : List Char := eraseWordFrom word 0 s

/-- The characters that may surround a guid. -/
def isBrace (c : Char) : Bool := c = '\x7b' || c = '\x7d'

/-- What is left of a spelling without the marks that do not count: braces around
it, the words that name the scheme, and hyphens anywhere. -/
def bareDigits (s : List Char) : List Char :=
  -- braces may surround the words, and the digits after them once more
  let s := eraseWord "uuid:".toList (eraseWord "urn:".toList (Text.trimBy isBrace s))
  (Text.trimBy isBrace s).filter (· ≠ '-')

/-- The guid that a bare text denotes: a hexadecimal number of 32 characters. -/
def ofBareDigits? (s : List Char) : Option Guid :=
  if s.length ≠ 32 then none
  else match Numeral.read .hexadecimal (String.ofList s) with
    | .ok n => if h : 0 ≤ n ∧ n.toNat < Nat.pow 2 128 then some ⟨n.toNat, h.2⟩ else none
    | .error _ => none

/-- The guid that a spelling denotes; a blank spelling denotes the nil guid. -/
def read? (spelling : String) : Option Guid :=
  let s := Text.trim spelling.toList
  if s.isEmpty then some nil else ofBareDigits? (bareDigits s)

end Guid

end PackPlan
