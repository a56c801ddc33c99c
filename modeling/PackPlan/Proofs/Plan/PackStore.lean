import PackPlan.Plan
import PackPlan.Proofs.Store.Combine
import PackPlan.Proofs.Walk.Cascade
import PackPlan.Proofs.Walk.Found

/-!
# The assets of a pack

The seeds of a pack bring in all that they lead to, each asset at the path that the catalog
gives it. The roots of levels that are brought in as well then take their share for the
packs of the levels.

## Main definitions

* `IsCatalogued` — a record of an asset at the path that a catalog gives it
* `Plan.levelsTaking` — the packs of levels that take an asset

## Main results

* `unambiguous_of_catalogued` — records of a catalog's assets can be merged
* `of_mem_records_packStore`, `exists_mem_records_packStore` — what the store of a pack holds
-/

namespace PackPlan

variable {c : Catalog} {rs : List Record} {r k : Record} {id : AssetId} {path : String}
  {s : Store}

/-! ### Records of a catalog -/

/-- A record of an asset at the path that a catalog gives it. -/
def IsCatalogued (c : Catalog) (r : Record) : Prop :=
  r.hasIdentity = true ∧ r.path = c.pathOf r.id

theorem IsCatalogued.identity? (h : IsCatalogued c r) : r.identity? = some r.id :=
  Record.identity?_eq_some.2 ⟨h.1, rfl⟩

section Catalogued

variable (catalogued : ∀ r ∈ rs, IsCatalogued c r)
include catalogued

/-- The path that an id carries is the one that the catalog gives it. -/
theorem eq_pathOf_of_carries (carried : Carries rs id path) : path = c.pathOf id := by
  obtain ⟨-, r, mem, identity, rfl⟩ := carried
  have here := catalogued r mem
  rw [here.2, (Record.identity?_eq_some.1 identity).2]

/-- Records of a catalog's assets can be merged, even where assets share a path. -/
theorem unambiguous_of_catalogued : Unambiguous rs where
  named r mem anonymous := by
    rw [(catalogued r mem).identity?] at anonymous
    exact absurd anonymous (by simp)
  path_unique first second :=
    (eq_pathOf_of_carries catalogued first).trans (eq_pathOf_of_carries catalogued second).symm
  id_unique r mem anonymous := by
    rw [(catalogued r mem).identity?] at anonymous
    exact absurd anonymous (by simp)

theorem packsAtPath_of_catalogued : packsAtPath rs path = ∅ :=
  packsAtPath_of_identified fun r mem => (catalogued r mem).identity?

/-- An id comes down to a record at the path that the catalog gives it. -/
theorem IsMergedAt.path_eq_pathOf (h : IsMergedAt rs id k) : k.path = c.pathOf id := by
  rcases h.path with carried | ⟨nowhere, unseen⟩
  · exact eq_pathOf_of_carries catalogued carried
  · obtain ⟨r, mem, identity⟩ := h.occurs
    have place := (catalogued r mem).2
    rw [(Record.identity?_eq_some.1 identity).2] at place
    by_cases named : r.path = ""
    · rw [nowhere, ← place, named]
    · exact absurd ⟨named, r, mem, identity, rfl⟩ (unseen r.path)

theorem IsMergedAt.isCatalogued (h : IsMergedAt rs id k) : IsCatalogued c k := by
  obtain ⟨valid, rfl⟩ := Record.identity?_eq_some.1 h.identity
  exact ⟨valid, h.path_eq_pathOf catalogued⟩

/-- Nothing waits in the store of such records. -/
theorem Merging.pathOnly_eq_none (h : Merging rs s) : s.pathOnly.get? path = none := by
  cases found : s.pathOnly.get? path with
  | none => rfl
  | some w =>
    obtain ⟨⟨r, mem, anonymous, -⟩, -⟩ := (h.waiting path w found).waits
    rw [(catalogued r mem).identity?] at anonymous
    exact absurd anonymous (by simp)

/-- The records of such a store are those of the ids that occur. -/
theorem Merging.mem_records_iff (h : Merging rs s) :
    k ∈ s.records ↔ s.find? k.id = some k := by
  rw [Store.mem_records]
  constructor
  · rintro (⟨id, found⟩ | ⟨path, found⟩)
    · rwa [(Record.identity?_eq_some.1 (h.present id k found).identity).2]
    · rw [h.pathOnly_eq_none catalogued] at found
      exact absurd found (by simp)
  · intro found
    exact Or.inl ⟨k.id, found⟩

/-- Taken one by one, such records leave a store of what they come down to. -/
theorem merging_foldl_addIdentified :
    Merging rs (rs.foldl (fun s r => (s.addIdentified r).1) .empty) := by
  have identified : ∀ r ∈ rs, r.identity? = some r.id := fun r mem =>
    (catalogued r mem).identity?
  exact (tracking_foldl_addIdentified identified).merging (unambiguous_of_catalogued catalogued)

end Catalogued

namespace Plan

variable {scope : Scope} {levels : Table Int (List AssetId)} {pack : Int}
  {seeds : List AssetId}

/-- The records of the assets that seeds bring in, before levels take their share. -/
def assetRecords (scope : Scope) (pack : Int) (seeds : List AssetId) : List Record :=
  (Walk.closure scope seeds).ids.map fun id => { id, path := scope.catalog.pathOf id, pack }

/-- The packs of the levels that take an asset: those with a root that is brought in and
leads to the asset or is the asset. -/
def levelsTaking (scope : Scope) (levels : Table Int (List AssetId)) (seeds : List AssetId)
    (id : AssetId) : Set Int :=
  {level | ∃ root, Walk.IsRoot levels level root ∧ root ∈ (Walk.closure scope seeds).ids ∧
    Relation.ReflTransGen scope.Step root id}

theorem catalogued_assetRecords (r : Record) (mem : r ∈ assetRecords scope pack seeds) :
    IsCatalogued scope.catalog r := by
  obtain ⟨id, found, rfl⟩ := List.mem_map.1 mem
  have inside := Walk.admits_of_mem_closure found
  rw [Scope.admits, Bool.and_eq_true] at inside
  exact ⟨inside.1, rfl⟩

theorem occurs_assetRecords :
    Occurs (assetRecords scope pack seeds) id ↔ id ∈ (Walk.closure scope seeds).ids := by
  constructor
  · rintro ⟨r, mem, identity⟩
    obtain ⟨id', found, rfl⟩ := List.mem_map.1 mem
    rwa [← (Record.identity?_eq_some.1 identity).2]
  · intro found
    have mem : { id, path := scope.catalog.pathOf id, pack } ∈ assetRecords scope pack seeds :=
      List.mem_map_of_mem found
    exact ⟨_, mem, (catalogued_assetRecords _ mem).identity?⟩

theorem pack_of_mem_packsOfId {p : Int} (mem : p ∈ packsOfId (assetRecords scope pack seeds) id) :
    p = pack := by
  obtain ⟨r, mem, -, rfl⟩ := mem
  obtain ⟨id', -, rfl⟩ := List.mem_map.1 mem
  rfl

/-- The store of a pack before levels take their share. -/
def broughtIn (scope : Scope) (pack : Int) (seeds : List AssetId) : Store :=
  (Walk.closure scope seeds).ids.foldl
    (fun s id => (s.addIdentified { id, path := scope.catalog.pathOf id, pack }).1) .empty

theorem merging_broughtIn :
    Merging (assetRecords scope pack seeds) (broughtIn scope pack seeds) := by
  have catalogued : ∀ r ∈ assetRecords scope pack seeds, IsCatalogued scope.catalog r :=
    catalogued_assetRecords
  have merging := merging_foldl_addIdentified catalogued
  rwa [assetRecords, List.foldl_map] at merging

theorem contains_broughtIn :
    (broughtIn scope pack seeds).contains id = true ↔ id ∈ (Walk.closure scope seeds).ids := by
  have occurs_iff : Occurs (assetRecords scope pack seeds) id ↔ _ := occurs_assetRecords
  rw [← occurs_iff]
  constructor
  · intro present
    obtain ⟨k, found⟩ := Option.isSome_iff_exists.1 present
    exact (merging_broughtIn.present id k found).occurs
  · intro occurs
    exact Option.isSome_iff_ne_none.2 fun missing =>
      merging_broughtIn.absent id missing occurs

theorem pack_of_find?_broughtIn (found : (broughtIn scope pack seeds).find? id = some k) :
    k.pack = pack := by
  have mem := (merging_broughtIn.present id k found).pack.1
  rw [packsAtPath_of_catalogued catalogued_assetRecords, Set.union_empty] at mem
  exact pack_of_mem_packsOfId mem

/-- Roots settle assets only if they have been brought in themselves. -/
theorem settlers_broughtIn :
    Walk.settlers scope levels (broughtIn scope pack seeds) id =
      levelsTaking scope levels seeds id := by
  have valid : ∀ root ∈ (Walk.closure scope seeds).ids, root.isValid = true := by
    intro root found
    have inside := Walk.admits_of_mem_closure found
    rw [Scope.admits, Bool.and_eq_true] at inside
    exact inside.1
  -- being valid and having a record comes to being brought in
  ext level
  constructor
  · rintro ⟨root, isRoot, -, present, reach⟩
    exact ⟨root, isRoot, contains_broughtIn.1 present, reach⟩
  · rintro ⟨root, isRoot, found, reach⟩
    exact ⟨root, isRoot, valid root found, contains_broughtIn.2 found, reach⟩

/-! ### After the levels -/

/-- A record of the store of a pack is that of an asset brought in, at the path that the
catalog gives it and with the pack that the levels leave it. -/
theorem of_mem_records_packStore (mem : r ∈ (packStore scope levels pack seeds).records) :
    IsCatalogued scope.catalog r ∧ r.id ∈ (Walk.closure scope seeds).ids ∧
      LeastClaim (levelsTaking scope levels seeds r.id) pack r.pack := by
  obtain ⟨f, after, decided⟩ :=
    Walk.exists_repack_cascade scope levels (broughtIn scope pack seeds)
  change r ∈ (Walk.cascade scope levels (broughtIn scope pack seeds)).1.records at mem
  rw [after, Store.mem_records] at mem
  rcases mem with ⟨id, found⟩ | ⟨path, found⟩
  · rw [Store.find?_repack] at found
    obtain ⟨k, old, rfl⟩ := Option.map_eq_some_iff.1 found
    have here := merging_broughtIn.present id k old
    have kept : IsCatalogued scope.catalog k := here.isCatalogued catalogued_assetRecords
    obtain ⟨-, rfl⟩ := Record.identity?_eq_some.1 here.identity
    have left := decided k.id k.pack
    rw [settlers_broughtIn, pack_of_find?_broughtIn old] at left
    refine ⟨kept, occurs_assetRecords.1 here.occurs, ?_⟩
    change LeastClaim _ pack (f k.id k.pack)
    rwa [pack_of_find?_broughtIn old]
  · rw [Store.pathOnly_repack, merging_broughtIn.pathOnly_eq_none catalogued_assetRecords] at found
    exact absurd found (by simp)

/-- Every asset that is brought in has a record in the store of the pack. -/
theorem exists_mem_records_packStore (found : id ∈ (Walk.closure scope seeds).ids) :
    ∃ r ∈ (packStore scope levels pack seeds).records, r.id = id := by
  obtain ⟨f, after, -⟩ :=
    Walk.exists_repack_cascade scope levels (broughtIn scope pack seeds)
  change ∃ r ∈ (Walk.cascade scope levels (broughtIn scope pack seeds)).1.records, r.id = id
  have present : (broughtIn scope pack seeds).contains id = true := contains_broughtIn.2 found
  obtain ⟨k, old⟩ := Option.isSome_iff_exists.1 present
  have identity := (merging_broughtIn.present id k old).identity
  rw [after]
  refine ⟨{ k with pack := f id k.pack }, Store.mem_records.2 (Or.inl ⟨id, ?_⟩),
    (Record.identity?_eq_some.1 identity).2⟩
  change Store.find? _ id = some k at old
  rw [Store.find?_repack, old, Option.map_some]

end Plan

end PackPlan
