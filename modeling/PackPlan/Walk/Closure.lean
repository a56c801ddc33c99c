import PackPlan.Walk.Scope

/-!
# The closure of seeds

Everything that seeds depend on, with the seeds themselves. Assets are listed in the
order in which they are found; the dependencies of an asset are found together, and
those found last are gone into first.

## Main definitions

* `Walk.newTargets` — the dependencies of an asset that are found for the first time
* `Walk.drain` — what is found from assets still to be looked up
* `Walk.closure` — everything that seeds depend on

## Main results

* `Walk.mem_newTargets` — which targets are found for the first time
-/

namespace PackPlan.Walk

/-- Those of some targets that a walk enters and that have not been found. -/
def newTargets (scope : Scope) (found : List AssetId) : List AssetId → List AssetId
  | [] => []
  | id :: targets =>
    if scope.admits id ∧ id ∉ found then id :: newTargets scope (id :: found) targets
    else newTargets scope found targets

/-- New targets are those in the scope that have not been found. -/
theorem mem_newTargets {scope : Scope} {found targets : List AssetId} {id : AssetId} :
    id ∈ newTargets scope found targets ↔
      id ∈ targets ∧ scope.admits id = true ∧ id ∉ found := by
  induction targets generalizing found with
  | nil => simp [newTargets]
  | cons a targets ih =>
    rw [newTargets]
    by_cases new : scope.admits a = true ∧ a ∉ found
    · rw [if_pos new, List.mem_cons, List.mem_cons, ih, List.mem_cons]
      by_cases same : id = a
      · simp [same, new]
      · simp [same]
    · rw [if_neg new, ih, List.mem_cons]
      by_cases same : id = a
      · subst same
        constructor
        · rintro ⟨-, rest⟩
          exact absurd rest new
        · rintro ⟨-, rest⟩
          exact absurd rest new
      · simp [same]

/-- What a walk has found and whose dependencies it has looked up. -/
structure Closure where
  /-- The assets found, in order. -/
  ids : List AssetId := []
  /-- The assets looked up, in order. -/
  lookups : List AssetId := []

/-- What is found from assets still to be looked up, the first being taken first. -/
def drain (scope : Scope) (c : Closure) : (waiting : List AssetId) → Closure
  | [] => c
  | id :: waiting =>
    let new := newTargets scope c.ids (scope.edges id)
    -- the last of the new ones is gone into first
    drain scope ⟨c.ids ++ new, c.lookups ++ [id]⟩ (new.reverse ++ waiting)
termination_by waiting => (scope.undiscovered c.ids, waiting.length)
decreasing_by
  by_cases nothing : newTargets scope c.ids (scope.edges id) = []
  · simp only [nothing, List.append_nil, List.reverse_nil, List.nil_append]
    exact Prod.Lex.right _ (by simp)
  · exact Prod.Lex.left _ _ (Scope.undiscovered_lt nothing
      (fun _ h => (mem_newTargets.1 h).2.2) fun _ h => (mem_newTargets.1 h).1)

/-- The closure with one more seed and what it depends on. -/
def addSeed (scope : Scope) (c : Closure) (seed : AssetId) : Closure :=
  if scope.admits seed ∧ seed ∉ c.ids then drain scope { c with ids := c.ids ++ [seed] } [seed]
  else c

/-- Everything that seeds depend on, with the seeds themselves. -/
def closure (scope : Scope) (seeds : List AssetId) : Closure :=
  seeds.foldl (addSeed scope) {}

end PackPlan.Walk
