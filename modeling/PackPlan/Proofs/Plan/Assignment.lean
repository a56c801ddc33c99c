import PackPlan.Proofs.Attempt
import PackPlan.Proofs.Plan.PackStore

/-!
# The assignment of assets to packs

A plan has one record for each asset that the seeds of some pack bring in. Within one pack
the least level that takes an asset decides, even where the level's pack is above that of
the seeds; among several packs that bring the asset in the least outcome decides.

## Main definitions

* `PlanInput.IsSeed`, `PlanInput.BringsIn` — the seeds of a pack, and what they bring in
* `PlanInput.levelClaims`, `PlanInput.outcomes` — the packs that decide about an asset
* `PlanInput.IsCoveredBy`, `PlanInput.IsPlan` — what a plan holds, and what it assigns

## Main results

* `of_mem_records_storeOf`, `exists_mem_records_storeOf` — what the store of a pack holds
* `packStores_runFrom` — the stores of the packs, one by one
* `isCoveredBy_of_merging`, `isLeast_outcomes_of_merging` — what they come down to
* `exists_isPlan_build` — a plan is built if no pack has a number too long to be told
* `build_isPlan` — a plan is built, or a pack has such a number
-/

namespace PackPlan

namespace PlanInput

variable (c : Catalog) (input : PlanInput)

/-- The scope of the walks of a plan. -/
def scope : Scope := ⟨c, input.exclusions⟩

/-- An asset is a seed of a pack if a record of the pack names it, by id or by path, and
the catalog knows it. -/
def IsSeed (pack : Int) (id : AssetId) : Prop :=
  ∃ records, input.seeds.get? pack = some records ∧
    ∃ r ∈ records, Plan.seedId c r = id ∧ Plan.isKnown c id = true

/-- The seeds of a pack bring in an asset if it is one of them or they lead to it, through
valid assets only none of which is excluded. -/
def BringsIn (pack : Int) (id : AssetId) : Prop :=
  ∃ seed, IsSeed c input pack seed ∧ (scope c input).admits seed = true ∧
    Relation.ReflTransGen (scope c input).Step seed id

/-- The packs of the levels that claim an asset from a pack: those with a root that the
seeds of the pack bring in and that leads to the asset or is the asset. -/
def levelClaims (pack : Int) (id : AssetId) : Set Int :=
  {level | ∃ root, Walk.IsRoot input.levels level root ∧ BringsIn c input pack root ∧
    Relation.ReflTransGen (scope c input).Step root id}

/-- What the packs that bring in an asset make of it: the least level that claims it from
the pack, or the pack itself. -/
def outcomes (id : AssetId) : Set Int :=
  {p | ∃ pack, BringsIn c input pack id ∧ LeastClaim (levelClaims c input pack id) pack p}

/-- A store covers an input if it has one record for each asset that is brought in, and
nothing else. -/
structure IsCoveredBy (s : Store) : Prop where
  /-- No record has only a path. -/
  identified : s.pathOnly.keys = [] ∧ ∀ r ∈ s.records, r.hasIdentity = true
  /-- No asset has two records. -/
  nodup_ids : (s.records.map Record.id).Nodup
  /-- The assets with a record are those brought in. -/
  mem_ids : ∀ id, id ∈ s.records.map Record.id ↔ ∃ pack, BringsIn c input pack id
  /-- Every asset is at the path that the catalog gives it. -/
  path : ∀ r ∈ s.records, r.path = c.pathOf r.id

/-- A plan covers its input and assigns every asset to the pack that is decided. -/
structure IsPlan (s : Store) : Prop extends IsCoveredBy c input s where
  /-- Every asset has the least pack that comes out, unless one pack overrides all. -/
  pack : ∀ r ∈ s.records, if input.override = unassigned
    then IsLeast (outcomes c input r.id) r.pack else r.pack = input.override

end PlanInput

namespace Plan

variable {platform : String} {c : Catalog} {input : PlanInput} {id : AssetId} {pack : Int}

theorem mem_seedIds {records : List Record} : id ∈ (seedIds platform c records).1 ↔
    ∃ r ∈ records, seedId c r = id ∧ isKnown c id = true := by
  induction records with
  | nil => simp [seedIds]
  | cons r records ih =>
    simp only [seedIds, List.exists_mem_cons_iff]
    by_cases known : isKnown c (seedId c r) = true
    · rw [if_pos known, List.mem_cons, ih]
      refine or_congr_left ⟨?_, fun h => h.1.symm⟩
      rintro rfl
      exact ⟨rfl, known⟩
    · rw [if_neg known, ih, iff_or_self]
      rintro ⟨rfl, known'⟩
      exact absurd known' known

/-- The store of a pack of a plan. -/
def storeOf (platform : String) (c : Catalog) (input : PlanInput) (group : Int × List Record) :
    Store :=
  packStore (input.scope c) input.levels group.1 (seedIds platform c group.2).1

/-- What the seeds of a pack bring in is what the walk from them finds. -/
theorem bringsIn_iff (platform : String) {records : List Record}
    (group : (pack, records) ∈ input.seeds.entries) :
    input.BringsIn c pack id ↔
      id ∈ (Walk.closure (input.scope c) (seedIds platform c records).1).ids := by
  have found := Table.get?_eq_some.2 group
  simp only [Walk.mem_closure, mem_seedIds, PlanInput.BringsIn, PlanInput.IsSeed, found,
    Option.some.injEq, exists_eq_left']

theorem levelClaims_eq (platform : String) {records : List Record}
    (group : (pack, records) ∈ input.seeds.entries) :
    input.levelClaims c pack id =
      levelsTaking (input.scope c) input.levels (seedIds platform c records).1 id := by
  ext level
  simp only [PlanInput.levelClaims, levelsTaking, Set.mem_ofPred_eq, bringsIn_iff platform group]

/-- A record of the store of a pack is that of an asset which the pack brings in, with the
pack that the levels leave it. -/
theorem of_mem_records_storeOf {records : List Record} {r : Record}
    (group : (pack, records) ∈ input.seeds.entries)
    (mem : r ∈ (storeOf platform c input (pack, records)).records) :
    IsCatalogued c r ∧ input.BringsIn c pack r.id ∧
      LeastClaim (input.levelClaims c pack r.id) pack r.pack := by
  rw [bringsIn_iff platform group, levelClaims_eq platform group]
  exact of_mem_records_packStore mem

/-- A pack that brings in an asset has seeds, and a record of the asset in its store. -/
theorem exists_mem_records_storeOf (platform : String) (brings : input.BringsIn c pack id) :
    ∃ records, (pack, records) ∈ input.seeds.entries ∧
      ∃ r ∈ (storeOf platform c input (pack, records)).records, r.id = id := by
  have seeded := brings
  obtain ⟨seed, ⟨records, found, -⟩, -⟩ := seeded
  have group := Table.get?_eq_some.1 found
  exact ⟨records, group, exists_mem_records_packStore ((bringsIn_iff platform group).1 brings)⟩

theorem packText_of_not_isTooLong (short : Numeral.isTooLong pack = false) :
    Hints.packText pack = .ok (String.ofList (Numeral.decimalText pack)) := by
  unfold Hints.packText Numeral.decimal?
  simp only [short, Bool.false_eq_true, if_false]

theorem packText_of_isTooLong (long : Numeral.isTooLong pack = true) :
    Hints.packText pack = .error .longNumber := by
  unfold Hints.packText Numeral.decimal?
  simp only [long, if_true]

/-- The stores of packs come one by one, up to the first pack whose number is too long to
be told. -/
theorem packStores_runFrom (platform : String) (c : Catalog) (input : PlanInput)
    (groups : List (Int × List Record)) (told : List Notice) :
    ∃ told', (packStores platform (input.scope c) input groups).runFrom told =
      (if groups.any (Numeral.isTooLong ·.1) then .error .longNumber
        else .ok (groups.map (storeOf platform c input)), told') := by
  induction groups generalizing told with
  | nil => exact ⟨told, Attempt.runFrom_pure []⟩
  | cons group groups ih =>
    obtain ⟨pack, records⟩ := group
    rw [packStores]
    simp only [Attempt.runFrom_bind_ok (Attempt.runFrom_forM_tell _)]
    -- the warnings about the seeds are always told, then the number has to be
    cases long : Numeral.isTooLong pack with
    | true =>
      rw [packText_of_isTooLong long, Attempt.runFrom_bind_error (Attempt.runFrom_ofExcept _)]
      simp [long]
    | false =>
      rw [packText_of_not_isTooLong long, Attempt.runFrom_bind_ok (Attempt.runFrom_ofExcept _),
        Attempt.runFrom_bind_ok (Attempt.runFrom_tell _)]
      obtain ⟨told', rest⟩ := ih _
      refine ⟨told', ?_⟩
      simp only [List.any_cons, long, Bool.false_or, List.map_cons]
      by_cases later : groups.any (Numeral.isTooLong ·.1) = true
      · rw [if_pos later] at rest ⊢
        rw [Attempt.runFrom_bind_error rest]
      · rw [if_neg later] at rest ⊢
        rw [Attempt.runFrom_bind_ok rest]
        exact Attempt.runFrom_pure _

/-! ### The packs together -/

section Together

variable {rs : List Record} {s : Store}
  (together : ∀ r, r ∈ rs ↔
    ∃ group ∈ input.seeds.entries, r ∈ (storeOf platform c input group).records)
include together

/-- The records of all packs are of assets at the paths that the catalog gives them. -/
theorem catalogued_of_together (r : Record) (mem : r ∈ rs) : IsCatalogued c r := by
  obtain ⟨group, listed, mem⟩ := (together r).1 mem
  exact (of_mem_records_storeOf listed mem).1

/-- An asset has a record if and only if the seeds of some pack bring it in. -/
theorem occurs_iff_bringsIn : Occurs rs id ↔ ∃ pack, input.BringsIn c pack id := by
  constructor
  · rintro ⟨r, mem, identity⟩
    obtain ⟨⟨pack, records⟩, group, mem⟩ := (together r).1 mem
    obtain ⟨-, rfl⟩ := Record.identity?_eq_some.1 identity
    exact ⟨pack, (of_mem_records_storeOf group mem).2.1⟩
  · rintro ⟨pack, brings⟩
    obtain ⟨records, group, r, mem, rfl⟩ := exists_mem_records_storeOf platform brings
    have listed := (together r).2 ⟨_, group, mem⟩
    exact ⟨r, listed, (catalogued_of_together together r listed).identity?⟩

/-- The packs that are given to an asset are what the packs that bring it in make of it. -/
theorem packsOfId_eq_outcomes : packsOfId rs id = input.outcomes c id := by
  ext p
  constructor
  · rintro ⟨r, mem, identity, rfl⟩
    obtain ⟨⟨pack, records⟩, group, mem⟩ := (together r).1 mem
    obtain ⟨-, rfl⟩ := Record.identity?_eq_some.1 identity
    obtain ⟨-, brings, left⟩ := of_mem_records_storeOf group mem
    exact ⟨pack, brings, left⟩
  · rintro ⟨pack, brings, left⟩
    obtain ⟨records, group, r, mem, rfl⟩ := exists_mem_records_storeOf platform brings
    have listed := (together r).2 ⟨_, group, mem⟩
    refine ⟨r, listed, (catalogued_of_together together r listed).identity?, ?_⟩
    exact (of_mem_records_storeOf group mem).2.2.unique left

/-- What the records of all packs come down to has one record for each asset brought in. -/
theorem isCoveredBy_of_merging (h : Merging rs s) : input.IsCoveredBy c s := by
  have catalogued := catalogued_of_together together
  have ids : s.records.map Record.id = s.identified.keys := by
    have nothing : s.pathOnly.values = [] := List.eq_nil_iff_forall_not_mem.2 fun w mem => by
      obtain ⟨path, found⟩ := Table.mem_values.1 mem
      rw [h.pathOnly_eq_none catalogued] at found
      exact absurd found (by simp)
    rw [Store.records, nothing, List.append_nil, h.map_id_values]
  have here : ∀ r ∈ s.records, IsMergedAt rs r.id r := fun r mem =>
    h.present r.id r ((h.mem_records_iff catalogued).1 mem)
  refine ⟨⟨?_, ?_⟩, ?_, ?_, ?_⟩
  · refine List.eq_nil_iff_forall_not_mem.2 fun path mem => ?_
    exact Table.get?_eq_none.1 (h.pathOnly_eq_none catalogued) mem
  · intro r mem
    exact (Record.identity?_eq_some.1 (here r mem).identity).1
  · rw [ids]
    exact s.identified.nodup
  · intro id
    rw [ids, ← occurs_iff_bringsIn together]
    constructor
    · intro mem
      obtain ⟨k, found⟩ := Option.ne_none_iff_exists'.1 (mt Table.get?_eq_none.1 (not_not.2 mem))
      exact (h.present id k found).occurs
    · intro occurs
      refine Decidable.byContradiction fun missing => ?_
      exact h.absent id (Table.get?_eq_none.2 missing) occurs
  · intro r mem
    exact (here r mem).path_eq_pathOf catalogued

/-- The pack of each record is the least of what comes out. -/
theorem isLeast_outcomes_of_merging (h : Merging rs s) {r : Record} (mem : r ∈ s.records) :
    IsLeast (input.outcomes c r.id) r.pack := by
  have catalogued := catalogued_of_together together
  have least := (h.present r.id r ((h.mem_records_iff catalogued).1 mem)).pack
  rwa [packsAtPath_of_catalogued catalogued, Set.union_empty,
    packsOfId_eq_outcomes together] at least

end Together

/-- A pack that overrides all others changes nothing but packs. -/
theorem records_overridePacks (s : Store) (overrides : pack ≠ unassigned) :
    (s.overridePacks pack none).1.records = s.records.map fun r => { r with pack := pack } := by
  rw [Store.overridePacks, if_neg overrides]
  simp [Store.records, Table.values, Table.map, Function.comp_def]

theorem isCoveredBy_overridePacks {s : Store} (h : input.IsCoveredBy c s)
    (overrides : pack ≠ unassigned) : input.IsCoveredBy c (s.overridePacks pack none).1 := by
  have records := records_overridePacks s overrides
  have ids : (s.overridePacks pack none).1.records.map Record.id = s.records.map Record.id := by
    rw [records, List.map_map]
    rfl
  refine ⟨⟨?_, ?_⟩, ?_, ?_, ?_⟩
  · rw [Store.overridePacks, if_neg overrides]
    exact (Table.keys_map _).trans h.identified.1
  · rw [records]
    exact List.forall_mem_map.2 h.identified.2
  · rw [ids]
    exact h.nodup_ids
  · rw [ids]
    exact h.mem_ids
  · rw [records]
    exact List.forall_mem_map.2 h.path

/-- What the records of all packs come down to is a plan, once one pack has overridden the others
if it is to do so. -/
theorem isPlan_of_merging {rs : List Record} {s : Store}
    (together : ∀ r, r ∈ rs ↔
      ∃ group ∈ input.seeds.entries, r ∈ (storeOf platform c input group).records)
    (merging : Merging rs s) : input.IsPlan c (s.overridePacks input.override none).1 := by
  have covered := isCoveredBy_of_merging together merging
  by_cases overrides : input.override = unassigned
  · rw [Store.overridePacks, if_pos overrides]
    refine ⟨covered, fun r mem => ?_⟩
    rw [if_pos overrides]
    exact isLeast_outcomes_of_merging together merging mem
  · refine ⟨isCoveredBy_overridePacks covered overrides, ?_⟩
    rw [records_overridePacks s overrides]
    exact List.forall_mem_map.2 fun r _ => by rw [if_neg overrides]

/-- The packs come in descending order, which changes nothing about which there are. -/
theorem mem_entries_sortKeys {group : Int × List Record} :
    group ∈ (input.seeds.sortKeys (· ≥ ·)).entries ↔ group ∈ input.seeds.entries :=
  (List.mergeSort_perm input.seeds.entries fun a b => decide (a.1 ≥ b.1)).mem_iff

/-- A plan is built where no pack of seeds has a number too long to be told. -/
theorem exists_isPlan_build (platform : String) (c : Catalog) (input : PlanInput)
    (short : ∀ pack ∈ input.seeds.keys, Numeral.isTooLong pack = false) :
    ∃ s, (build platform c input).run.1 = .ok s ∧ input.IsPlan c s := by
  obtain ⟨told, ran⟩ := packStores_runFrom platform c input
    (input.seeds.sortKeys (· ≥ ·)).entries []
  have tellable : (input.seeds.sortKeys (· ≥ ·)).entries.any (Numeral.isTooLong ·.1) = false := by
    refine List.any_eq_false.2 fun group mem long => ?_
    rw [short group.1 (List.mem_map_of_mem (mem_entries_sortKeys.1 mem))] at long
    cases long
  rw [tellable, if_neg Bool.false_ne_true] at ran
  have together : ∀ r, r ∈ ((input.seeds.sortKeys (· ≥ ·)).entries.map fun group =>
      (storeOf platform c input group).records).flatten ↔
      ∃ group ∈ input.seeds.entries, r ∈ (storeOf platform c input group).records := by
    intro r
    rw [← List.flatMap_def, List.mem_flatMap]
    exact exists_congr fun group => and_congr_left fun _ => mem_entries_sortKeys
  obtain ⟨s, combined, merging⟩ := exists_merging_combine? _
    (unambiguous_of_catalogued (catalogued_of_together together))
  refine ⟨_, ?_, isPlan_of_merging together merging⟩
  rw [build, Attempt.run_eq_runFrom]
  change ((packStores platform (input.scope c) input _ >>= _).runFrom []).1 = _
  rw [Attempt.runFrom_bind_ok ran]
  simp only [List.map_map, Function.comp_def, combined]
  rfl

/-- A plan has one record for each asset that the seeds of some pack bring in and no other.
The asset is at the path that the catalog gives it, and its pack is the least of what the
packs that bring it in make of it, or the one pack that overrides all. Building it fails
only where the number of a pack of seeds has more digits than can be told. -/
theorem build_isPlan (platform : String) (c : Catalog) (input : PlanInput) :
    (∃ s, (build platform c input).run.1 = .ok s ∧ input.IsPlan c s) ∨
    (∃ pack ∈ input.seeds.keys, Numeral.isTooLong pack = true) ∧
      (build platform c input).run.1 = .error .longNumber := by
  by_cases long : ∃ pack ∈ input.seeds.keys, Numeral.isTooLong pack = true
  · refine .inr ⟨long, ?_⟩
    obtain ⟨pack, key, tooLong⟩ := long
    obtain ⟨group, entry, rfl⟩ := List.mem_map.1 key
    obtain ⟨told, ran⟩ := packStores_runFrom platform c input
      (input.seeds.sortKeys (· ≥ ·)).entries []
    have ends : (input.seeds.sortKeys (· ≥ ·)).entries.any (Numeral.isTooLong ·.1) = true :=
      List.any_eq_true.2 ⟨group, mem_entries_sortKeys.2 entry, tooLong⟩
    -- the first number that is too long ends the plan
    rw [if_pos ends] at ran
    rw [build, Attempt.run_eq_runFrom]
    change ((packStores platform (input.scope c) input _ >>= _).runFrom []).1 = _
    rw [Attempt.runFrom_bind_error ran]
  · refine .inl (exists_isPlan_build platform c input fun pack key => ?_)
    exact Bool.eq_false_iff.2 fun tooLong => long ⟨pack, key, tooLong⟩

end Plan

end PackPlan
