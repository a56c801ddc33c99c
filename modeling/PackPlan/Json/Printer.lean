import PackPlan.Json.Value

/-!
# Writing JSON

Documents are written with every member and item on a line of its own, four spaces
deeper than what holds it, and in ASCII: any other character is escaped.

## Main definitions

* `Json.escapeChar` — how a character stands in a string
* `Json.Value.pretty` — the written form of a value
-/

namespace PackPlan.Json

/-- The escape of a code unit by number. -/
def unitEscape (n : Nat) : List Char := '\\' :: 'u' :: Text.hexPadded 4 n

/-- How a character stands in a string. Beyond the sixteen bits of a code unit it is
written as a surrogate pair. -/
def escapeChar (c : Char) : List Char :=
  let n := c.toNat
  if c = '"' ∨ c = '\\' then ['\\', c]
  else if c = '\n' then ['\\', 'n']
  else if c = '\r' then ['\\', 'r']
  else if c = '\t' then ['\\', 't']
  else if n = 0x8 then ['\\', 'b']
  else if n = 0xc then ['\\', 'f']
  else if 0x20 ≤ n ∧ n < 0x7f then [c]
  else if n < 0x10000 then unitEscape n
  else
    unitEscape (0xd800 + (n - 0x10000) / 0x400) ++ unitEscape (0xdc00 + (n - 0x10000) % 0x400)

/-- The written form of a string. -/
def writeString (s : String) : List Char := '"' :: s.toList.flatMap escapeChar ++ ['"']

/-- The line end and the indentation of a depth. -/
def newLine (depth : Nat) : List Char := '\n' :: List.replicate (4 * depth) ' '

/-- Written parts between two brackets, each on a line of its own. -/
def block (depth : Nat) (opening closing : Char) : List (List Char) → List Char
  | [] => [opening, closing]
  | parts =>
    opening :: newLine (depth + 1) ++ (',' :: newLine (depth + 1)).intercalate parts ++
      newLine depth ++ [closing]

/-- The written form of a floating-point number. -/
def writeReal : Binary64 → String
  | .nan => "NaN"
  | .infinite negative => if negative then "-Infinity" else "Infinity"
  | x => x.text

mutual

/-- The written form of a value at a depth; nothing for a number too long to be
written. -/
def Value.write (depth : Nat) : Value → Option (List Char)
  | .null => some "null".toList
  | .bool b => some (if b then "true".toList else "false".toList)
  | .int n => (Numeral.decimal? n).map (·.toList)
  | .real x => some (writeReal x).toList
  | .str s => some (writeString s)
  | .arr items => do return block depth '[' ']' (← writeItems (depth + 1) items)
  | .obj members => do return block depth '\x7b' '\x7d' (← writeMembers (depth + 1) members)

/-- The written forms of the items of an array. -/
def writeItems (depth : Nat) : List Value → Option (List (List Char))
  | [] => some []
  | v :: vs => do return (← v.write depth) :: (← writeItems depth vs)

/-- The written forms of the members of an object. -/
def writeMembers (depth : Nat) : List (String × Value) → Option (List (List Char))
  | [] => some []
  | (name, v) :: ms => do
    return (writeString name ++ ':' :: ' ' :: (← v.write depth)) :: (← writeMembers depth ms)

end

/-- The written form of a value; nothing for a number too long to be written. -/
def Value.pretty (v : Value) : Option String := (v.write 0).map String.ofList

end PackPlan.Json
