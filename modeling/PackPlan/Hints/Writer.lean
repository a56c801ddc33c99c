import PackPlan.Grouping
import PackPlan.Hints.Reader
import PackPlan.Json.Printer

/-!
# Writing hint files

Records are written pack by pack. A record that says nothing of its asset is left out
with a warning, and so is a pack of which nothing is left.

## Main definitions

* `Hints.writeEntry` — the entry of a record
* `Hints.document` — the hint file of records
* `Hints.render` — its text
-/

namespace PackPlan.Hints

open Json (Value)

/-- The members of the entry of a record. -/
def writeEntry (r : Record) : List (String × Value) :=
  (if r.hasIdentity then [(guidKey, .str r.id.guid.text), (subIdKey, .int r.id.subId)] else []) ++
    (if r.path = "" then [] else [(pathKey, .str r.path)])

/-- The text of a number that names a pack. -/
def packText (pack : Int) : Except Fault String :=
  match Numeral.decimal? pack with
  | some s => .ok s
  | none => .error .longNumber

/-- The entries of a pack; a record that would leave an empty one gives rise to a
warning. -/
def writeGroup (pack : Int) : List Record → Attempt (List Value)
  | [] => return []
  | r :: rs => do
    if writeEntry r = [] then
      let key ← Attempt.ofExcept (packText pack)
      Attempt.tell
        (.warning s!"skipping a pack {key} record with neither an asset id nor a relative path")
      writeGroup pack rs
    else
      let entries ← writeGroup pack rs
      return .obj (writeEntry r) :: entries

/-- The members of the hint file of groups of records. -/
def writeGroups : List (Int × List Record) → Attempt (List (String × Value))
  | [] => return []
  | (pack, group) :: groups => do
    let entries ← writeGroup pack group
    if entries.isEmpty then writeGroups groups
    else
      let key ← Attempt.ofExcept (packText pack)
      let members ← writeGroups groups
      return (key, .arr entries) :: members

/-- The hint file of records. -/
def document (records : List Record) : Attempt Value := do
  return .obj (← writeGroups (Groups.ofRecords records).entries)

/-- The text of a document, with a line end. -/
def render (v : Value) : Except Fault String :=
  match v.pretty with
  | some s => .ok (s ++ "\n")
  | none => .error .longNumber

end PackPlan.Hints
