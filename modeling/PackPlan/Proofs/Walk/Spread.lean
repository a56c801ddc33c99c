import PackPlan.Proofs.Store.Repack
import PackPlan.Proofs.Walk.Reach
import PackPlan.Walk.Descent

/-!
# What a descent passes

A descent visits no asset twice, whatever cycles there are, and still passes everything
that steps lead to. The invariant is that an asset which was passed either had been
visited before the descent set out, or has all assets that can be stepped into from it
passed as well.

## Main results

* `exists_reaches_of_mem_passed` — a descent passes only what its pending assets lead to
* `mem_passed_of_step` — what a descent passes is closed under steps
* `mem_passed_spread` — from a root exactly what a step or more lead to is passed
* `relabel_spread` — what spreading a pack from a root does to a store
-/

namespace PackPlan.Walk

variable {scope : Scope} {visited pending : List AssetId} {a b id root : AssetId}

/-! ### Soundness -/

/-- A descent passes only what its pending assets, those in the scope, lead to. -/
theorem exists_reaches_of_mem_passed (passed : id ∈ (descend scope visited pending).passed) :
    ∃ p ∈ pending, scope.admits p = true ∧ Relation.ReflTransGen scope.Step p id := by
  induction visited, pending using descend_induction scope with
  | nil visited => simp at passed
  | outside visited a pending outside ih =>
    rw [descend_of_not_admits outside] at passed
    obtain ⟨p, mem, inside, reach⟩ := ih passed
    exact ⟨p, List.mem_cons_of_mem _ mem, inside, reach⟩
  | seen visited a pending inside seen ih =>
    rw [descend_of_seen inside seen] at passed
    rcases List.mem_cons.1 passed with rfl | passed
    · exact ⟨id, List.mem_cons_self, inside, .refl⟩
    · obtain ⟨p, mem, inside, reach⟩ := ih passed
      exact ⟨p, List.mem_cons_of_mem _ mem, inside, reach⟩
  | new visited a pending inside isNew ih =>
    rw [descend_of_new inside isNew] at passed
    rcases List.mem_cons.1 passed with rfl | passed
    · exact ⟨id, List.mem_cons_self, inside, .refl⟩
    · obtain ⟨p, mem, entered, reach⟩ := ih passed
      -- what became pending only now is a step from the asset visited
      rcases List.mem_append.1 mem with edge | mem
      · have first := Scope.step_iff.2 ⟨edge, entered⟩
        exact ⟨a, List.mem_cons_self, inside, .head first reach⟩
      · exact ⟨p, List.mem_cons_of_mem _ mem, entered, reach⟩

/-! ### Completeness -/

theorem mem_passed_of_mem_pending (mem : id ∈ pending) (inside : scope.admits id = true) :
    id ∈ (descend scope visited pending).passed := by
  induction visited, pending using descend_induction scope with
  | nil visited => exact absurd mem List.not_mem_nil
  | outside visited a pending outside ih =>
    rw [descend_of_not_admits outside]
    rcases List.mem_cons.1 mem with rfl | mem
    · rw [inside] at outside
      exact absurd outside (by simp)
    · exact ih mem
  | seen visited a pending entered seen ih =>
    rw [descend_of_seen entered seen]
    rcases List.mem_cons.1 mem with rfl | mem
    · exact List.mem_cons_self
    · exact List.mem_cons_of_mem _ (ih mem)
  | new visited a pending entered isNew ih =>
    rw [descend_of_new entered isNew]
    rcases List.mem_cons.1 mem with rfl | mem
    · exact List.mem_cons_self
    · exact List.mem_cons_of_mem _ (ih (List.mem_append_right _ mem))

/-- What a descent passes is closed under steps, but for those from assets that had been
visited before. -/
theorem mem_passed_of_step (passed : a ∈ (descend scope visited pending).passed)
    (unvisited : a ∉ visited) (step : scope.Step a b) :
    b ∈ (descend scope visited pending).passed := by
  induction visited, pending using descend_induction scope with
  | nil visited => simp at passed
  | outside visited c pending outside ih =>
    rw [descend_of_not_admits outside] at passed ⊢
    exact ih passed unvisited
  | seen visited c pending inside seen ih =>
    rw [descend_of_seen inside seen] at passed ⊢
    rcases List.mem_cons.1 passed with rfl | passed
    · exact absurd seen unvisited
    · exact List.mem_cons_of_mem _ (ih passed unvisited)
  | new visited c pending inside isNew ih =>
    rw [descend_of_new inside isNew] at passed ⊢
    refine List.mem_cons_of_mem _ ?_
    by_cases same : a = c
    · -- the dependencies of the asset visited now have become pending
      subst same
      obtain ⟨edge, inside⟩ := Scope.step_iff.1 step
      exact mem_passed_of_mem_pending (List.mem_append_left _ edge) inside
    · rcases List.mem_cons.1 passed with rfl | passed
      · exact absurd rfl same
      · exact ih passed (by simp [same, unvisited])

/-! ### From a root -/

theorem mem_passed_spread_of_step (step : scope.Step root id) :
    id ∈ (spread scope root).passed := by
  obtain ⟨edge, inside⟩ := Scope.step_iff.1 step
  exact mem_passed_of_mem_pending edge inside

/-- A descent from a root passes exactly what a step or more lead to. The root itself is
passed only if steps lead back to it. -/
theorem mem_passed_spread :
    id ∈ (spread scope root).passed ↔ Relation.TransGen scope.Step root id := by
  constructor
  · intro passed
    obtain ⟨p, edge, inside, reach⟩ := exists_reaches_of_mem_passed passed
    exact .head' (Scope.step_iff.2 ⟨edge, inside⟩) reach
  · intro reach
    -- the root counts as visited from the start, so its steps need the lemma above
    induction reach with
    | single step => exact mem_passed_spread_of_step step
    | @tail a b _ step ih =>
      by_cases atRoot : a = root
      · subst atRoot
        exact mem_passed_spread_of_step step
      · exact mem_passed_of_step ih (by simp [atRoot]) step

open Classical in
/-- Spreading a pack from a root is one change of packs. -/
theorem relabel_spread_eq_repack (scope : Scope) (root : AssetId) (pack : Int) (s : Store) :
    (spread scope root).relabel pack s =
      s.repack fun id old => if Relation.TransGen scope.Step root id then pack else old := by
  rw [Trail.relabel, Store.foldl_setPack]
  congr 1
  funext id old
  by_cases reach : Relation.TransGen scope.Step root id
  · rw [if_pos reach, if_pos (mem_passed_spread.2 reach)]
  · rw [if_neg reach, if_neg (mt mem_passed_spread.1 reach)]

/-- Spreading a pack from a root gives the pack to the records of exactly those assets
that are reached from the root by a step or more, the root's own record among them only
if steps lead back to it. Every other record stays as it is, and so do the keys with their
order, the records that have only a path and the claims to paths. -/
theorem relabel_spread (scope : Scope) (root : AssetId) (pack : Int) (s : Store) :
    (∀ id r, Relation.TransGen scope.Step root id → s.find? id = some r →
      ((spread scope root).relabel pack s).find? id = some { r with pack := pack }) ∧
    (∀ id, ¬ Relation.TransGen scope.Step root id →
      ((spread scope root).relabel pack s).find? id = s.find? id) ∧
    ((spread scope root).relabel pack s).identified.keys = s.identified.keys ∧
    ((spread scope root).relabel pack s).pathOnly = s.pathOnly ∧
    ((spread scope root).relabel pack s).claims = s.claims := by
  rw [relabel_spread_eq_repack]
  refine ⟨?_, ?_, Store.keys_repack, Store.pathOnly_repack, Store.claims_repack⟩
  · intro id r reach found
    rw [Store.find?_repack, found, Option.map_some, if_pos reach]
  · intro id apart
    rw [Store.find?_repack]
    simp [apart]

end PackPlan.Walk
