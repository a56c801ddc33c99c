import PackPlan.Numeral.Binary64
import PackPlan.Numeral.Printer
import PackPlan.Text.Quoted

/-!
# JSON values

A JSON value, with whole numbers apart from the others, and the form in which a
diagnostic shows it.

## Main definitions

* `Json.Value` — a JSON value
* `Json.putMember` — a member written into an object
* `Json.Value.shown` — how a diagnostic shows a value
* `Json.Value.asText` — a value as text
-/

namespace PackPlan.Json

/-- A JSON value. The members of an object have distinct names. -/
inductive Value
  | null
  | bool (b : Bool)
  | int (n : Int)
  | real (x : Binary64)
  | str (s : String)
  | arr (items : List Value)
  | obj (members : List (String × Value))

instance : Inhabited Value := ⟨.null⟩

/-- A member written into an object. A name that occurs again keeps its place and
takes the new value. -/
def putMember (members : List (String × Value)) (name : String) (v : Value) :
    List (String × Value) :=
  if members.any (·.1 = name) then members.map fun m => if m.1 = name then (name, v) else m
  else members ++ [(name, v)]

/-- The value of a member. -/
def member? (members : List (String × Value)) (name : String) : Option Value :=
  members.lookup name

mutual

/-- How a diagnostic shows a value, text in quotes; nothing for a number too long to
be written. -/
def Value.shown : Value → Option String
  | .null => some "None"
  | .bool b => some (if b then "True" else "False")
  | .int n => Numeral.decimal? n
  | .real x => some x.text
  | .str s => some (Text.quote s)
  | .arr items => do return "[" ++ ", ".intercalate (← shownItems items) ++ "]"
  | .obj members => do return "\x7b" ++ ", ".intercalate (← shownMembers members) ++ "\x7d"

/-- The items of an array, as a diagnostic shows them. -/
def shownItems : List Value → Option (List String)
  | [] => some []
  | v :: vs => do return (← v.shown) :: (← shownItems vs)

/-- The members of an object, as a diagnostic shows them. -/
def shownMembers : List (String × Value) → Option (List String)
  | [] => some []
  | (name, v) :: ms => do return (Text.quote name ++ ": " ++ (← v.shown)) :: (← shownMembers ms)

end

/-- A value as text: text is itself, anything else is as a diagnostic shows it. -/
def Value.asText : Value → Option String
  | .str s => some s
  | v => v.shown

end PackPlan.Json
