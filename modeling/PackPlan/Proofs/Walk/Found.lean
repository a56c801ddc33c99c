import PackPlan.Proofs.Walk.Reach
import PackPlan.Walk.Closure

/-!
# What a closure finds

The closure of seeds is found from a work list. What has been found and no longer waits
has all its successors found; when nothing waits any more, the assets found are closed
under steps.

## Main results

* `mem_drain_of_step` — an asset that does not wait has its successors found
* `mem_closure` — a closure finds exactly what its seeds lead to
-/

namespace PackPlan.Walk

variable {scope : Scope} {c : Closure} {found waiting seeds : List AssetId}
  {a b id seed : AssetId}

/-! ### The work list -/

/-- A step leads to what has been found or is found now. -/
theorem mem_append_newTargets (step : scope.Step a b) :
    b ∈ found ++ newTargets scope found (scope.edges a) := by
  by_cases known : b ∈ found
  · exact List.mem_append_left _ known
  · obtain ⟨edge, inside⟩ := Scope.step_iff.1 step
    exact List.mem_append_right _ (mem_newTargets.2 ⟨edge, inside, known⟩)

theorem mem_drain_of_mem (mem : id ∈ c.ids) : id ∈ (drain scope c waiting).ids := by
  induction c, waiting using drain.induct scope with
  | case1 c => rwa [drain]
  | case2 c a waiting new ih =>
    rw [drain]
    exact ih (List.mem_append_left _ mem)

/-- Whatever is found was found before or is led to by an asset that waited. -/
theorem exists_reaches_of_mem_drain (mem : id ∈ (drain scope c waiting).ids) :
    id ∈ c.ids ∨ ∃ w ∈ waiting, Relation.ReflTransGen scope.Step w id := by
  induction c, waiting using drain.induct scope with
  | case1 c =>
    rw [drain] at mem
    exact Or.inl mem
  | case2 c a waiting new ih =>
    rw [drain] at mem
    rcases ih mem with known | ⟨w, waits, reach⟩
    · rcases List.mem_append.1 known with known | fresh
      · exact Or.inl known
      · obtain ⟨edge, inside, -⟩ := mem_newTargets.1 fresh
        exact Or.inr ⟨a, List.mem_cons_self, .single (Scope.step_iff.2 ⟨edge, inside⟩)⟩
    · rcases List.mem_append.1 waits with fresh | waits
      · obtain ⟨edge, inside, -⟩ := mem_newTargets.1 (List.mem_reverse.1 fresh)
        have first := Scope.step_iff.2 ⟨edge, inside⟩
        exact Or.inr ⟨a, List.mem_cons_self, .head first reach⟩
      · exact Or.inr ⟨w, List.mem_cons_of_mem _ waits, reach⟩

/-- Whatever is found has its successors found, but for what had been found before and
did not wait. -/
theorem mem_drain_of_step (mem : a ∈ (drain scope c waiting).ids)
    (open' : a ∈ c.ids → a ∈ waiting) (step : scope.Step a b) :
    b ∈ (drain scope c waiting).ids := by
  induction c, waiting using drain.induct scope with
  | case1 c =>
    rw [drain] at mem
    exact absurd (open' mem) List.not_mem_nil
  | case2 c w waiting new ih =>
    rw [drain] at mem ⊢
    by_cases current : a = w
    · subst current
      exact mem_drain_of_mem (mem_append_newTargets step)
    · -- what has waited goes on waiting, and so does what is found now
      refine ih mem fun known => ?_
      rcases List.mem_append.1 known with known | fresh
      · rcases List.mem_cons.1 (open' known) with same | waits
        · exact absurd same current
        · exact List.mem_append_right _ waits
      · exact List.mem_append_left _ (List.mem_reverse.2 fresh)

/-! ### Seeds -/

theorem mem_addSeed_of_mem (mem : id ∈ c.ids) : id ∈ (addSeed scope c seed).ids := by
  unfold addSeed
  split
  · exact mem_drain_of_mem (List.mem_append_left _ mem)
  · exact mem

theorem seed_mem_addSeed (inside : scope.admits seed = true) :
    seed ∈ (addSeed scope c seed).ids := by
  unfold addSeed
  split
  · exact mem_drain_of_mem (List.mem_append_right _ (List.mem_singleton_self _))
  · next old => exact Decidable.byContradiction fun fresh => old ⟨inside, fresh⟩

/-- What a seed adds is led to by the seed. -/
theorem reaches_of_mem_addSeed (mem : id ∈ (addSeed scope c seed).ids) :
    id ∈ c.ids ∨ scope.admits seed = true ∧ Relation.ReflTransGen scope.Step seed id := by
  unfold addSeed at mem
  split at mem
  · next new =>
    rcases exists_reaches_of_mem_drain mem with known | ⟨w, waits, reach⟩
    · rcases List.mem_append.1 known with known | isSeed
      · exact Or.inl known
      · rw [List.mem_singleton.1 isSeed]
        exact Or.inr ⟨new.1, .refl⟩
    · rw [List.mem_singleton.1 waits] at reach
      exact Or.inr ⟨new.1, reach⟩
  · exact Or.inl mem

/-- With one more seed the assets found stay closed under steps. -/
theorem mem_addSeed_of_step (closed : ∀ a ∈ c.ids, ∀ b, scope.Step a b → b ∈ c.ids)
    (mem : a ∈ (addSeed scope c seed).ids) (step : scope.Step a b) :
    b ∈ (addSeed scope c seed).ids := by
  by_cases known : a ∈ c.ids
  · exact mem_addSeed_of_mem (closed a known b step)
  · unfold addSeed at mem ⊢
    split at mem
    · next new =>
      rw [if_pos new]
      -- of what had been found before the drain only the seed can be new
      refine mem_drain_of_step mem (fun listed => ?_) step
      exact (List.mem_append.1 listed).resolve_left known
    · exact absurd mem known

/-- The assets found from seeds in addition to others. -/
theorem mem_foldl_addSeed (closed : ∀ a ∈ c.ids, ∀ b, scope.Step a b → b ∈ c.ids) :
    id ∈ (seeds.foldl (addSeed scope) c).ids ↔ id ∈ c.ids ∨
      ∃ seed ∈ seeds, scope.admits seed = true ∧ Relation.ReflTransGen scope.Step seed id := by
  induction seeds generalizing c with
  | nil => simp
  | cons seed seeds ih =>
    -- one seed leaves the assets found closed for the seeds after it
    have closed' : ∀ a ∈ (addSeed scope c seed).ids, ∀ b, scope.Step a b →
        b ∈ (addSeed scope c seed).ids := fun a mem b step => mem_addSeed_of_step closed mem step
    rw [List.foldl_cons, ih closed']
    constructor
    · rintro (mem | ⟨seed', mem, inside, reach⟩)
      · rcases reaches_of_mem_addSeed mem with known | ⟨inside, reach⟩
        · exact Or.inl known
        · exact Or.inr ⟨seed, List.mem_cons_self, inside, reach⟩
      · exact Or.inr ⟨seed', List.mem_cons_of_mem _ mem, inside, reach⟩
    · rintro (known | ⟨seed', mem, inside, reach⟩)
      · exact Or.inl (mem_addSeed_of_mem known)
      · rcases List.mem_cons.1 mem with rfl | mem
        · exact Or.inl (Scope.mem_of_reflTransGen_step closed' (seed_mem_addSeed inside) reach)
        · exact Or.inr ⟨seed', mem, inside, reach⟩

/-- A closure finds exactly what its seeds lead to, seeds that are not in the scope being
passed over. -/
theorem mem_closure :
    id ∈ (closure scope seeds).ids ↔
      ∃ seed ∈ seeds, scope.admits seed = true ∧ Relation.ReflTransGen scope.Step seed id := by
  rw [closure, mem_foldl_addSeed (fun a mem => absurd mem List.not_mem_nil)]
  simp

theorem admits_of_mem_closure (mem : id ∈ (closure scope seeds).ids) :
    scope.admits id = true := by
  obtain ⟨seed, -, inside, reach⟩ := mem_closure.1 mem
  exact Scope.admits_of_reflTransGen_step inside reach

end PackPlan.Walk
