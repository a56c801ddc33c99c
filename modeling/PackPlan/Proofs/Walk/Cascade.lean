import Mathlib.Order.Bounds.Basic
import PackPlan.Proofs.Walk.Spread

/-!
# Packs that cascade

Every root of a group that is valid and has a record settles itself and all that it leads
to in the pack of its group. No packs are compared on the way: the groups come in
descending order and each overwrites what the ones before it have settled, so the least
pack that settles an asset has the last word.

## Main definitions

* `LeastClaim` — the least of some packs, or another where there are none
* `Walk.Settles` — whether a root settles an asset
* `Walk.IsRoot` — whether an asset is a root of a pack
* `Walk.settlers` — the packs with a root that settles an asset

## Main results

* `LeastClaim.unique` — claims leave no choice
* `settleRoot_eq_repack`, `foldl_settleRoot` — what a root, a group of roots settles
* `foldl_groups_leastClaim` — descending groups leave each asset its least pack
* `cascade_leastClaim` — the packs after a cascade, and that no order of the roots matters
-/

namespace PackPlan

/-- A pack is decided by claims if it is the least of them or, where there are none, the
pack that was there anyway. -/
def LeastClaim (claims : Set Int) (own pack : Int) : Prop :=
  IsLeast claims pack ∨ claims = ∅ ∧ pack = own

section LeastClaim

variable {claims claims' : Set Int} {own pack pack' : Int}

theorem LeastClaim.unique (h : LeastClaim claims own pack) (h' : LeastClaim claims own pack') :
    pack = pack' := by
  rcases h with least | ⟨none, rfl⟩ <;> rcases h' with least' | ⟨none', rfl⟩
  · exact least.unique least'
  · rw [none'] at least
    exact absurd least.1 (Set.notMem_empty _)
  · rw [none] at least'
    exact absurd least'.1 (Set.notMem_empty _)
  · rfl

/-- Claims that come later and are not above a former one take precedence over it. -/
theorem LeastClaim.of_overwrite {first : Int} {claimed : Prop} [Decidable claimed]
    (below : ∀ p ∈ claims, p ≤ first)
    (h : LeastClaim claims (if claimed then first else own) pack) :
    LeastClaim (claims ∪ {p | claimed ∧ p = first}) own pack := by
  rcases h with least | ⟨none, rfl⟩
  · left
    refine ⟨Or.inl least.1, ?_⟩
    rintro p (later | ⟨-, rfl⟩)
    · exact least.2 later
    · exact below _ least.1
  · rw [none, Set.empty_union]
    by_cases here : claimed
    · left
      rw [if_pos here]
      exact ⟨⟨here, rfl⟩, fun p hp => hp.2.ge⟩
    · right
      rw [if_neg here]
      exact ⟨Set.eq_empty_of_forall_notMem fun p hp => here hp.1, rfl⟩

end LeastClaim

namespace Walk

variable {scope : Scope} {s : Store} {root id : AssetId} {pack : Int}

/-- A root settles itself and what it leads to, if it is valid and has a record. That the
root is excluded does not matter. -/
def Settles (scope : Scope) (s : Store) (root id : AssetId) : Prop :=
  root.isValid = true ∧ s.contains root = true ∧ Relation.ReflTransGen scope.Step root id

/-- An asset is among the roots of a pack. -/
def IsRoot (roots : Table Int (List AssetId)) (pack : Int) (root : AssetId) : Prop :=
  ∃ group, roots.get? pack = some group ∧ root ∈ group

/-- The packs with a root that settles an asset. -/
def settlers (scope : Scope) (roots : Table Int (List AssetId)) (s : Store) (id : AssetId) :
    Set Int :=
  {pack | ∃ root, IsRoot roots pack root ∧ Settles scope s root id}

@[simp] theorem settles_repack {f : AssetId → Int → Int} :
    Settles scope (s.repack f) root id ↔ Settles scope s root id := by
  simp [Settles]

open Classical in
/-- A root gives its pack to what it settles. -/
theorem settleRoot_eq_repack (pack : Int) (state : Store × List AssetId) (root : AssetId) :
    (settleRoot scope pack state root).1 =
      state.1.repack fun id old => if Settles scope state.1 root id then pack else old := by
  obtain ⟨s, lookups⟩ := state
  unfold settleRoot
  dsimp only
  by_cases skipped : root.isValid = true ∧ s.contains root = true
  · rw [if_neg (by simp [skipped])]
    dsimp only
    rw [relabel_spread_eq_repack, Store.setPack_eq_repack, Store.repack_repack]
    congr 1
    funext id old
    simp only [Settles, skipped, true_and, Relation.reflTransGen_iff_eq_or_transGen]
    -- the root itself is set first, and the descent may come back to it
    by_cases below : Relation.TransGen scope.Step root id <;>
      by_cases same : id = root <;> simp [below, same]
  · rw [if_pos (by rw [not_and_or] at skipped; simpa using skipped)]
    have idle : ∀ id, ¬ Settles scope s root id := fun id h => skipped ⟨h.1, h.2.1⟩
    simp only [idle, if_false, Store.repack_id]

open Classical in
/-- A group of roots gives its pack to what any of them settles. -/
theorem foldl_settleRoot (pack : Int) (group : List AssetId) (state : Store × List AssetId) :
    (group.foldl (settleRoot scope pack) state).1 =
      state.1.repack fun id old =>
        if ∃ root ∈ group, Settles scope state.1 root id then pack else old := by
  induction group generalizing state with
  | nil => simp [Store.repack_id]
  | cons root group ih =>
    -- what the later roots settle does not depend on the packs set so far
    rw [List.foldl_cons, ih, settleRoot_eq_repack, Store.repack_repack]
    congr 1
    funext id old
    by_cases first : Settles scope state.1 root id <;>
      by_cases later : ∃ root ∈ group, Settles scope state.1 root id <;>
      simp [first, later]

/-- Groups that come in descending order of their packs leave each asset the least pack
that settles it. -/
theorem foldl_groups_leastClaim (groups : List (Int × List AssetId))
    (descending : groups.Pairwise fun g g' => g'.1 ≤ g.1) (state : Store × List AssetId) :
    ∃ f, (groups.foldl (fun state group =>
        (AssetId.sort group.2).foldl (settleRoot scope group.1) state) state).1 =
      state.1.repack f ∧
    ∀ id old, LeastClaim
      {pack | ∃ group ∈ groups, group.1 = pack ∧ ∃ root ∈ group.2, Settles scope state.1 root id}
      old (f id old) := by
  classical
  induction groups generalizing state with
  | nil => exact ⟨fun _ old => old, Store.repack_id.symm, fun id old => Or.inr (by simp)⟩
  | cons group groups ih =>
    obtain ⟨above, descending⟩ := List.pairwise_cons.1 descending
    obtain ⟨f, after, decided⟩ :=
      ih descending ((AssetId.sort group.2).foldl (settleRoot scope group.1) state)
    rw [List.foldl_cons, after, foldl_settleRoot, Store.repack_repack]
    refine ⟨_, rfl, fun id old => ?_⟩
    simp only [foldl_settleRoot, settles_repack, AssetId.sort, List.mem_mergeSort] at decided ⊢
    have below : ∀ p ∈ {pack | ∃ group ∈ groups, group.1 = pack ∧
        ∃ root ∈ group.2, Settles scope state.1 root id}, p ≤ group.1 := by
      rintro p ⟨later, mem, rfl, -⟩
      exact above later mem
    -- the group comes before all others, and theirs are not above its pack
    convert LeastClaim.of_overwrite below (decided id _) using 1
    ext pack
    simp only [List.mem_cons, Set.mem_ofPred_eq, Set.mem_union]
    constructor
    · rintro ⟨g, rfl | mem, same, settled⟩
      · exact Or.inr ⟨settled, same.symm⟩
      · exact Or.inl ⟨g, mem, same, settled⟩
    · rintro (⟨g, mem, same, settled⟩ | ⟨settled, same⟩)
      · exact ⟨g, Or.inr mem, same, settled⟩
      · exact ⟨group, Or.inl rfl, same.symm, settled⟩

/-- The packs with a settling root, read off the groups in any order. -/
theorem settlers_eq_of_perm {roots : Table Int (List AssetId)}
    {groups : List (Int × List AssetId)} (same : groups.Perm roots.entries) :
    settlers scope roots s id =
      {pack | ∃ group ∈ groups, group.1 = pack ∧ ∃ root ∈ group.2, Settles scope s root id} := by
  ext pack
  constructor
  · rintro ⟨root, ⟨group, found, mem⟩, settled⟩
    exact ⟨(pack, group), same.mem_iff.2 (Table.get?_eq_some.1 found), rfl, root, mem, settled⟩
  · rintro ⟨⟨p, group⟩, mem, rfl, root, isRoot, settled⟩
    exact ⟨root, ⟨group, Table.get?_eq_some.2 (same.mem_iff.1 mem), isRoot⟩, settled⟩

/-- A cascade is one change of packs, and the change is decided by the packs whose roots
settle an asset. -/
theorem exists_repack_cascade (scope : Scope) (roots : Table Int (List AssetId)) (s : Store) :
    ∃ f, (cascade scope roots s).1 = s.repack f ∧
      ∀ id old, LeastClaim (settlers scope roots s id) old (f id old) := by
  have descending : (roots.sortKeys (· ≥ ·)).entries.Pairwise fun g g' => g'.1 ≤ g.1 := by
    have sorted : (roots.sortKeys (· ≥ ·)).entries.Pairwise fun g g' => decide (g.1 ≥ g'.1) :=
      List.pairwise_mergeSort (by simp only [ge_iff_le, decide_eq_true_eq]; omega)
        (by simp only [ge_iff_le, Bool.or_eq_true, decide_eq_true_eq]; omega) roots.entries
    exact sorted.imp fun h => by simpa using h
  obtain ⟨f, after, decided⟩ := @foldl_groups_leastClaim scope _ descending (s, [])
  refine ⟨f, after, fun id old => ?_⟩
  rw [settlers_eq_of_perm (List.mergeSort_perm _ _)]
  exact decided id old

/-- After a cascade every record that has an id carries the least pack with a root that is
valid, has a record and leads to the id or is the id; a record that no root leads to
carries the pack that it had. Nothing else changes, and it matters neither in which order
the groups come nor in which order or how often a group names its roots. -/
theorem cascade_leastClaim (scope : Scope) (roots : Table Int (List AssetId)) (s : Store) :
    (∀ id r, s.find? id = some r → ∃ pack,
      (cascade scope roots s).1.find? id = some { r with pack := pack } ∧
        LeastClaim (settlers scope roots s id) r.pack pack) ∧
    (cascade scope roots s).1.identified.keys = s.identified.keys ∧
    (cascade scope roots s).1.pathOnly = s.pathOnly ∧
    (cascade scope roots s).1.claims = s.claims ∧
    ∀ roots', (∀ pack root, IsRoot roots' pack root ↔ IsRoot roots pack root) →
      (cascade scope roots' s).1 = (cascade scope roots s).1 := by
  obtain ⟨f, after, decided⟩ := exists_repack_cascade scope roots s
  rw [after]
  refine ⟨?_, Store.keys_repack, Store.pathOnly_repack, Store.claims_repack, ?_⟩
  · intro id r found
    exact ⟨f id r.pack, by rw [Store.find?_repack, found, Option.map_some], decided id r.pack⟩
  · intro roots' same
    -- the same packs claim each asset, and claims leave no choice
    obtain ⟨f', after', decided'⟩ := exists_repack_cascade scope roots' s
    rw [after']
    congr 1
    funext id old
    refine (decided' id old).unique ?_
    have settled : settlers scope roots' s id = settlers scope roots s id := by
      ext pack
      simp only [settlers, Set.mem_ofPred_eq, same]
    rw [settled]
    exact decided id old

end Walk

end PackPlan
