import Mathlib.Data.Set.Finite.Lemmas
import PackPlan.Proofs.Hints.RoundTrip
import PackPlan.Proofs.Plan.Assignment

/-!
# Seeds with their least packs

Without levels an asset is assigned to the least pack that brings it in. Of a seed in several
packs only the least one counts then: a plan is the same if every seed is left in its least pack
alone.

## Main definitions

* `PlanInput.IsLeastOf` — an input has the seeds of another, each in its least pack

## Main results

* `PlanInput.isSeed_iff` — the seeds of records that are sorted out by pack
* `PlanInput.outcomes_of_no_levels` — without levels the packs themselves decide
* `PlanInput.IsPlan.perm_bare` — seeds in their least packs have the same plan
-/

namespace PackPlan

variable {c : Catalog} {input least : PlanInput} {s s' : Store} {rs : List Record} {id : AssetId}
  {pack : Int}

namespace PlanInput

/-! ### Seeds -/

/-- The seeds of a pack are those of the records with this pack. -/
theorem isSeed_iff (collected : input.seeds = Groups.collect rs) : input.IsSeed c pack id ↔
    ∃ r ∈ rs, r.pack = pack ∧ Plan.seedId c r = id ∧ Plan.isKnown c id = true := by
  have group : ∀ records, input.seeds.get? pack = some records →
      records = rs.filter (·.pack = pack) := by
    intro records found
    rw [← Groups.get?_collect, ← collected, found, Option.getD_some]
  constructor
  · rintro ⟨records, found, r, mem, rest⟩
    rw [group records found, List.mem_filter] at mem
    exact ⟨r, mem.1, of_decide_eq_true mem.2, rest⟩
  · rintro ⟨r, mem, same, rest⟩
    have key : pack ∈ input.seeds.keys := by
      rw [collected]
      exact Groups.mem_keys_collect.2 ⟨r, mem, same⟩
    obtain ⟨records, found⟩ :=
      Option.ne_none_iff_exists'.1 (mt Table.get?_eq_none.1 (not_not.2 key))
    refine ⟨records, found, r, ?_, rest⟩
    rw [group records found, List.mem_filter]
    exact ⟨mem, decide_eq_true same⟩

theorem IsSeed.mem_keys (h : input.IsSeed c pack id) : pack ∈ input.seeds.keys := by
  obtain ⟨records, found, -⟩ := h
  exact List.mem_map_of_mem (Table.get?_eq_some.1 found)

/-- A seed has a least pack. -/
theorem exists_isLeast_isSeed (h : input.IsSeed c pack id) :
    ∃ p ≤ pack, IsLeast {p | input.IsSeed c p id} p := by
  have finite : {p | input.IsSeed c p id}.Finite :=
    input.seeds.keys.finite_toSet.subset fun p seeded => seeded.mem_keys
  obtain ⟨p, seeded, below⟩ := Set.exists_min_image _ (fun p => p) finite ⟨pack, h⟩
  exact ⟨p, below pack h, seeded, below⟩

/-! ### Least packs -/

/-- An input has the seeds of another, each in its least pack, and passes over the same. -/
structure IsLeastOf (c : Catalog) (input least : PlanInput) : Prop where
  /-- The same is passed over. -/
  exclusions : least.exclusions = input.exclusions
  /-- A seed is in its least pack. -/
  seeds : ∀ pack id, least.IsSeed c pack id ↔ IsLeast {p | input.IsSeed c p id} pack

theorem IsLeastOf.scope_eq (h : IsLeastOf c input least) : least.scope c = input.scope c := by
  rw [scope, scope, h.exclusions]

/-- What is brought in by seeds in their least packs is brought in by the same pack. -/
theorem IsLeastOf.bringsIn (h : IsLeastOf c input least) (brings : least.BringsIn c pack id) :
    input.BringsIn c pack id := by
  obtain ⟨seed, seeded, enters, leads⟩ := brings
  rw [h.scope_eq] at enters leads
  exact ⟨seed, ((h.seeds pack seed).1 seeded).1, enters, leads⟩

/-- What a pack brings in is brought in by a seed in its least pack, which is no higher. -/
theorem IsLeastOf.exists_bringsIn_le (h : IsLeastOf c input least)
    (brings : input.BringsIn c pack id) : ∃ p ≤ pack, least.BringsIn c p id := by
  obtain ⟨seed, seeded, enters, leads⟩ := brings
  obtain ⟨p, below, lowest⟩ := exists_isLeast_isSeed seeded
  rw [← h.scope_eq] at enters leads
  exact ⟨p, below, seed, (h.seeds p seed).2 lowest, enters, leads⟩

theorem IsLeastOf.exists_bringsIn_iff (h : IsLeastOf c input least) :
    (∃ pack, least.BringsIn c pack id) ↔ ∃ pack, input.BringsIn c pack id := by
  constructor
  · rintro ⟨pack, brings⟩
    exact ⟨pack, h.bringsIn brings⟩
  · rintro ⟨pack, brings⟩
    obtain ⟨p, -, brings⟩ := h.exists_bringsIn_le brings
    exact ⟨p, brings⟩

/-- Without levels the packs that bring an asset in decide about it. -/
theorem outcomes_of_no_levels (flat : input.levels = .empty) :
    input.outcomes c id = {pack | input.BringsIn c pack id} := by
  have unclaimed : ∀ pack, input.levelClaims c pack id = ∅ := by
    intro pack
    refine Set.eq_empty_of_forall_notMem ?_
    rintro level ⟨root, ⟨group, found, -⟩, -⟩
    rw [flat] at found
    cases found
  ext pack
  constructor
  · rintro ⟨own, brings, ⟨claimed, -⟩ | ⟨-, rfl⟩⟩
    · rw [unclaimed] at claimed
      exact absurd claimed (Set.notMem_empty _)
    · exact brings
  · intro brings
    exact ⟨pack, brings, .inr ⟨unclaimed pack, rfl⟩⟩

theorem IsLeastOf.isLeast_outcomes (h : IsLeastOf c input least) (flat : input.levels = .empty)
    (flat' : least.levels = .empty) (lowest : IsLeast (least.outcomes c id) pack) :
    IsLeast (input.outcomes c id) pack := by
  rw [outcomes_of_no_levels flat'] at lowest
  rw [outcomes_of_no_levels flat]
  refine ⟨h.bringsIn lowest.1, fun p brings => ?_⟩
  obtain ⟨p', below, brings'⟩ := h.exists_bringsIn_le brings
  exact (lowest.2 brings').trans below

/-! ### Plans -/

theorem IsCoveredBy.nodup_bare (h : input.IsCoveredBy c s) :
    (s.records.map Record.bare).Nodup := by
  refine List.Nodup.of_map Record.id ?_
  rw [List.map_map]
  exact h.nodup_ids

/-- Seeds in their least packs have the same plan, where there are no levels and no pack overrides
the others. -/
theorem IsPlan.perm_bare (plan : input.IsPlan c s) (plan' : least.IsPlan c s')
    (h : IsLeastOf c input least) (flat : input.levels = .empty) (flat' : least.levels = .empty)
    (free : input.override = unassigned) (free' : least.override = unassigned) :
    (s'.records.map Record.bare).Perm (s.records.map Record.bare) := by
  have alike : ∀ r ∈ s'.records, ∀ k ∈ s.records, r.id = k.id → r.bare = k.bare := by
    intro r memR k memK same
    have lowest' := plan'.pack r memR
    have lowest := plan.pack k memK
    rw [if_pos free'] at lowest'
    rw [if_pos free, ← same] at lowest
    have packs : r.pack = k.pack := (h.isLeast_outcomes flat flat' lowest').unique lowest
    rw [Record.bare, Record.bare, plan'.path r memR, plan.path k memK, same, packs]
  have ids : ∀ id, id ∈ s'.records.map Record.id ↔ id ∈ s.records.map Record.id := by
    intro id
    rw [plan'.mem_ids, plan.mem_ids, h.exists_bringsIn_iff]
  refine (List.perm_ext_iff_of_nodup plan'.nodup_bare plan.nodup_bare).2 fun b => ?_
  constructor
  · rintro mem
    obtain ⟨r, memR, rfl⟩ := List.mem_map.1 mem
    obtain ⟨k, memK, same⟩ := List.mem_map.1 ((ids r.id).1 (List.mem_map_of_mem memR))
    exact alike r memR k memK same.symm ▸ List.mem_map_of_mem memK
  · rintro mem
    obtain ⟨k, memK, rfl⟩ := List.mem_map.1 mem
    obtain ⟨r, memR, same⟩ := List.mem_map.1 ((ids k.id).2 (List.mem_map_of_mem memK))
    exact alike r memR k memK same ▸ List.mem_map_of_mem memR

end PlanInput

end PackPlan
