import PackPlan.Grouping
import PackPlan.Hints.Writer
import PackPlan.Walk.Closure
import PackPlan.Walk.Descent

/-!
# Plans

A plan assigns every asset that a platform needs to a pack. The seeds of a pack bring in
everything they depend on; level roots then spread their packs over what they depend
on; and where an asset ends up in several packs the lowest wins.

## Main definitions

* `PackPlan.PlanInput` — seeds, level roots and exclusions
* `Plan.seedIds` — the ids of the seeds of a pack
* `Plan.packStore` — the assets that the seeds of a pack bring in
* `Plan.build` — the plan of a platform
* `Plan.print` — the plan, told pack by pack
-/

namespace PackPlan

/-- What a plan is made from. -/
structure PlanInput where
  /-- The seeds of each pack. -/
  seeds : Groups := .empty
  /-- The level roots of each pack. -/
  levels : Table Int (List AssetId) := .empty
  /-- What is passed over. -/
  exclusions : Exclusions := {}
  /-- The pack that overrides all others, if it is not that of the unassigned. -/
  override : Int := unassigned

namespace Plan

/-- The id of a seed, by itself or by its path. -/
def seedId (c : Catalog) (r : Record) : AssetId := if r.hasIdentity then r.id else c.idOf r.path

/-- Whether the catalog knows an asset. -/
def isKnown (c : Catalog) (id : AssetId) : Bool := id.isValid && c.pathOf id ≠ ""

/-- The warning about a seed that the catalog of a platform does not know. -/
def unknownSeed (platform : String) (r : Record) : Notice :=
  let name := if r.path = "" then r.id.text else r.path
  .warning s!"asset catalog does not know about the seed ( {name} ) on platform ( {platform} )"

/-- The ids of seeds, those that the catalog does not know being left out with a
warning. -/
def seedIds (platform : String) (c : Catalog) : List Record → List AssetId × List Notice
  | [] => ([], [])
  | r :: rs =>
    let (ids, notices) := seedIds platform c rs
    if isKnown c (seedId c r) then (seedId c r :: ids, notices)
    else (ids, unknownSeed platform r :: notices)

/-- The assets that seeds bring in, with the pack of the seeds but for those that the
level roots claim. -/
def packStore (scope : Scope) (levels : Table Int (List AssetId)) (pack : Int)
    (seeds : List AssetId) : Store :=
  let store := (Walk.closure scope seeds).ids.foldl
    (fun s id => (s.addIdentified { id, path := scope.catalog.pathOf id, pack }).1) .empty
  (Walk.cascade scope levels store).1

/-- The assets that the seeds of packs bring in, a store for each pack. -/
def packStores (platform : String) (scope : Scope) (input : PlanInput) :
    List (Int × List Record) → Attempt (List Store)
  | [] => return []
  | (pack, records) :: groups => do
    let (seeds, notices) := seedIds platform scope.catalog records
    notices.forM Attempt.tell
    let store := packStore scope input.levels pack seeds
    let packName ← Attempt.ofExcept (Hints.packText pack)
    Attempt.tell
      (.detail s!"[{platform}] pack {packName}: {seeds.length} seeds, {store.size} assets")
    let stores ← packStores platform scope input groups
    return store :: stores

/-- The plan of a platform. -/
def build (platform : String) (c : Catalog) (input : PlanInput) : Attempt Store := do
  let scope : Scope := ⟨c, input.exclusions⟩
  let stores ← packStores platform scope input (input.seeds.sortKeys (· ≥ ·)).entries
  match Store.combine? (stores.map (·.records)) with
  | some merged => return (merged.overridePacks input.override none).1
  | none => throw .namelessRecord

/-- The assets of a pack, told one by one. -/
def printGroup (pack : Int) (records : List Record) : Attempt Unit := do
  let packName ← Attempt.ofExcept (Hints.packText pack)
  Attempt.tell (.info s!"  pack {packName}: {records.length} assets")
  records.forM fun r => Attempt.tell (.info s!"    {r.path}\t{r.id.text}")

/-- A plan, told pack by pack. -/
def print (platform : String) (s : Store) : Attempt Unit := do
  Attempt.tell (.info s!"[{platform}]")
  (Groups.ofRecords s.records).entries.forM fun group => printGroup group.1 group.2

end Plan

end PackPlan
