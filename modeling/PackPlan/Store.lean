import PackPlan.Record
import PackPlan.Table

/-!
# The record store

The store holds one record per asset. A record that names its asset by id is kept
under the id; one that has only a path waits under the path until an id claims that
path, and is then absorbed by the id's record. Whenever two records fall together the
smaller pack wins.

## Main definitions

* `PackPlan.Store` — the records, and the ids that claim paths
* `Store.add` — one more record
* `Store.claimPath` — an id takes a path and absorbs what waits there
* `Store.remove`, `Store.setPack`, `Store.overridePacks` — changes by id
* `Store.find?`, `Store.findByPath?` — look-up
* `Store.combine` — the records of several sources in one store
-/

namespace PackPlan

/-- Records by id and by path. -/
structure Store where
  /-- The records that have an id. -/
  identified : Table AssetId Record := .empty
  /-- The records that have only a path. -/
  pathOnly : Table String Record := .empty
  /-- The id that was the first to claim a path. -/
  claims : Table String AssetId := .empty

namespace Store

/-- The store of nothing. -/
def empty : Store := {}

instance : Inhabited Store := ⟨empty⟩

/-- All records, those with ids first. -/
def records (s : Store) : List Record := s.identified.values ++ s.pathOnly.values

/-- How many records there are. -/
def size (s : Store) : Nat := s.identified.size + s.pathOnly.size

/-- The record of an id. -/
def find? (s : Store) (id : AssetId) : Option Record := s.identified.get? id

/-- A record of the store is that of an id or waits at a path. -/
theorem mem_records {s : Store} {k : Record} : k ∈ s.records ↔
    (∃ id, s.find? id = some k) ∨ ∃ path, s.pathOnly.get? path = some k := by
  rw [records, List.mem_append, Table.mem_values, Table.mem_values]
  rfl

/-- Whether an id has a record. -/
def contains (s : Store) (id : AssetId) : Bool := s.identified.contains id

/-- The record of a path: that of the id that claims it, or the one that waits there. -/
def findByPath? (s : Store) (path : String) : Option Record :=
  match s.claims.get? path with
  | some id => s.identified.get? id
  | none => s.pathOnly.get? path

/-! ### Adding records -/

/-- An id takes a path: its record gets the path and absorbs the record that waits
there, and the claim is noted if it is the first. The empty path is not taken. -/
def claimPath (s : Store) (id : AssetId) (path : String) : Store :=
  if path = "" then s
  else
    { identified := s.identified.adjust id fun r =>
        match s.pathOnly.get? path with
        | some waiting => { r with path := path, pack := min r.pack waiting.pack }
        | none => { r with path := path }
      pathOnly := s.pathOnly.erase path
      claims := s.claims.insertNew path id }

/-- A record without an id falls together with the record of its path, or waits. -/
def addPathOnly (s : Store) (r : Record) : Store × Bool :=
  match s.claims.get? r.path with
  | some id => ({ s with identified := s.identified.adjust id (·.lowerPack r.pack) }, true)
  | none =>
    if s.pathOnly.contains r.path then
      ({ s with pathOnly := s.pathOnly.adjust r.path (·.lowerPack r.pack) }, true)
    else ({ s with pathOnly := s.pathOnly.insertNew r.path r }, false)

/-- A record with an id falls together with the record of that id, which learns the
path if it has none, or becomes the record of its id. -/
def addIdentified (s : Store) (r : Record) : Store × Bool :=
  match s.identified.get? r.id with
  | some known =>
    let merged := { s with identified := s.identified.adjust r.id (·.lowerPack r.pack) }
    (if known.path = "" then merged.claimPath r.id r.path else merged, true)
  | none =>
    ({ s with identified := s.identified.insertNew r.id r }.claimPath r.id r.path, false)

/-- The store with one more record, and whether the record fell together with one
that was there. A record with neither id nor path is refused. -/
def add? (s : Store) (r : Record) : Option (Store × Bool) :=
  if r.hasIdentity then some (s.addIdentified r)
  else if r.path = "" then none
  else some (s.addPathOnly r)

/-- The records of several sources in one store, or nothing if one is refused. -/
def combine? (sources : List (List Record)) : Option Store :=
  sources.flatten.foldlM (fun s r => (s.add? r).map Prod.fst) empty

/-! ### Changes by id -/

/-- The store without the record of an id and without its claim. -/
def remove (s : Store) (id : AssetId) : Store :=
  match s.identified.get? id with
  | some r =>
    { s with
      identified := s.identified.erase id
      claims := if s.claims.get? r.path = some id then s.claims.erase r.path else s.claims }
  | none => s

/-- The store with a pack for an id; an id without a record is passed over. -/
def setPack (s : Store) (id : AssetId) (pack : Int) : Store :=
  { s with identified := s.identified.adjust id fun r => { r with pack := pack } }

/-- The ids of a list that have records, each once. -/
def present (s : Store) (ids : List AssetId) : List AssetId :=
  ids.eraseDups.filter s.contains

/-- The store with one pack for all its records, or for those of the given ids, and
how many records that concerns. The pack of the unassigned overrides nothing. -/
def overridePacks (s : Store) (pack : Int) (ids : Option (List AssetId)) : Store × Nat :=
  if pack = unassigned then (s, 0)
  else match ids with
    | none =>
      ({ s with
         identified := s.identified.map fun _ r => { r with pack := pack }
         pathOnly := s.pathOnly.map fun _ r => { r with pack := pack } }, s.size)
    | some ids => ((s.present ids).foldl (·.setPack · pack) s, (s.present ids).length)

end Store

end PackPlan
