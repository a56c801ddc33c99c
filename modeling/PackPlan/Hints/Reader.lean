import PackPlan.AssetPath
import PackPlan.Notice
import PackPlan.Record
import PackPlan.Text.Lines

/-!
# Reading hint files

A hint file is a JSON object with a key for each pack and, under it, an array of
entries that name assets by id, by path, or both. What an entry leaves out may be found
by asking the catalogs.

## Main definitions

* `Hints.Resolver` — how ids and paths are found for each other
* `Hints.readSubId` — the sub id that a JSON value denotes
* `Hints.readEntry` — the record of an entry
* `Hints.readDocument` — the records of a hint file
* `Hints.readBytes` — the records of the bytes of a hint file
-/

namespace PackPlan.Hints

open Json (Value)

/-- How ids and paths are found for each other, and the notices that go with it. -/
structure Resolver where
  /-- The id of the asset at a path. -/
  id : String → AssetId × List Notice
  /-- The path of an asset. -/
  path : AssetId → String × List Notice

/-- The resolver that finds nothing. -/
def Resolver.none : Resolver := ⟨fun _ => (.none, []), fun _ => ("", [])⟩

/-- The key of the guid. -/
def guidKey : String := "guid"

/-- The key of the sub id. -/
def subIdKey : String := "subId"

/-- The key of the path. -/
def pathKey : String := "assetHint"

/-! ### Entries -/

/-- A value as text, or a number that is too long for that. -/
def asText (v : Value) : Except EntryFault String :=
  match v.asText with
  | some s => .ok s
  | none => .error .longNumber

/-- The refusal of a value that is no sub id. -/
def refuseSubId (v : Value) : EntryFault :=
  match v.shown with
  | some s => .subId s
  | none => .longNumber

/-- The hexadecimal digits of a sub id that is given as text. -/
def subIdDigits (s : String) : String :=
  match Text.lower (Text.trim s.toList) with
  | '0' :: 'x' :: digits => String.ofList digits
  | digits => String.ofList digits

/-- The sub id that a JSON value denotes: a number that is not negative, or hexadecimal
text. -/
def readSubId : Value → Except EntryFault Int
  | .int n => if n < 0 then .error (refuseSubId (.int n)) else .ok n
  | .str s =>
    (Numeral.read .hexadecimal (subIdDigits s)).mapError fun cause => .assetId (.subId cause)
  | v => .error (refuseSubId v)

/-- What an entry says by itself: the path, and the id if it has one. -/
def readFields (members : List (String × Value)) :
    Except EntryFault (String × Option AssetId) := do
  let guid? := Json.member? members guidKey
  let subId? := Json.member? members subIdKey
  let path? := Json.member? members pathKey
  if (guid?.isNone ∨ subId?.isNone) ∧ path?.isNone then throw .incomplete
  else
    let path ← match path? with
      | some v => (asText v).map AssetPath.normalize
      | none => pure ""
    match guid?, subId? with
    | some guid, some subId =>
      -- of two faults in one entry the first in this order is told
      let guid ← asText guid
      let subId ← readSubId subId
      let id ← (AssetId.make guid subId).mapError .assetId
      return (path, some id)
    | _, _ => return (path, none)

/-- The record of an entry, what it leaves out being asked of the resolver, and the
notices that go with it. -/
def complete (resolver : Resolver) (pack : Int) (path : String) (id? : Option AssetId) :
    Record × List Notice :=
  let (id, asked) := match id? with
    | some id => (id, [])
    | none => resolver.id path
  let (path, told) := if path = "" ∧ id.isValid then resolver.path id else (path, [])
  ({ id, path, pack }, asked ++ told)

/-! ### Documents -/

/-- The pack that a key denotes. -/
def readPack (key : String) : Except HintCause Int :=
  match Numeral.read .decimal key with
  | .error _ => .error (.packNumber key)
  | .ok n => if n < 0 then .error (.packSign key) else .ok n

/-- The record of an item of a pack. -/
def readItem (resolver : Resolver) (path key : String) (pack : Int) : Value → Attempt Record
  | .obj members =>
    match readFields members with
    | .error cause => throw (.hints { path, cause := .entry key cause })
    | .ok (assetPath, id?) => do
      let (record, notices) := complete resolver pack assetPath id?
      notices.forM Attempt.tell
      return record
  | _ => throw (.hints { path, cause := .noEntry key })

/-- The records of a pack. -/
def readPackItems (resolver : Resolver) (path : String) (member : String × Value) :
    Attempt (List Record) := do
  let key := member.1
  match readPack key with
  | .error cause => throw (.hints { path, cause })
  | .ok pack =>
    match member.2 with
    | .arr items => items.mapM (readItem resolver path key pack)
    | _ => throw (.hints { path, cause := .noArray key })

/-- The records of the text of a hint file. -/
def readDocument (resolver : Resolver) (path text : String) : Attempt (List Record) :=
  match Json.read text with
  | .error (.malformed cause line) =>
    throw (.hints { path, line := some line, cause := .malformed cause })
  | .error (.number cause) => throw (.number cause)
  | .ok (.obj members) => do return (← members.mapM (readPackItems resolver path)).flatten
  | .ok _ => throw (.hints { path, cause := .noObject })

/-- The records of the bytes of a hint file. -/
def readBytes (resolver : Resolver) (path : String) (bytes : Bytes) : Attempt (List Record) := do
  let text ← Attempt.ofExcept ((Utf8.decode bytes).mapError .text)
  readDocument resolver path (String.ofList (Text.unifyLines text))

end PackPlan.Hints
