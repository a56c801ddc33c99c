import Mathlib.Data.List.Basic
import PackPlan.Proofs.Walk.Spread
import PackPlan.Proofs.Walk.Stack

/-!
# Walks that know only their path

A walk could do with knowing the path by which it has come: it gives every dependency in
the scope the pack and goes into it unless it is on the path. Such a walk goes into a shared
dependency once for every path that leads there, so it takes far more steps than a descent,
which goes into nothing twice. A descent cuts some of these steps while what they would lead
to is still being gone into; nothing is lost by this. Both give the pack to the same records.

## Main definitions

* `Walk.walkPaths` — the store after a walk that knows only its path
* `Scope.LeadsOff` — what an asset leads to without coming back to a path

## Main results

* `Scope.leadsOff_iff` — an asset need not be come back to
* `walkPaths_eq_repack` — what a walk that knows only its path gives the pack
* `relabel_spread_eq_walkPaths` — the descent from a root leaves the same store
-/

namespace PackPlan

/-! ### Steps off a path -/

namespace Scope

variable {scope : Scope} {path : List AssetId} {a b id target : AssetId}

/-- A walk steps into an asset that is not on a path. -/
def StepOff (scope : Scope) (path : List AssetId) (a b : AssetId) : Prop :=
  scope.Step a b ∧ b ∉ path

/-- An asset leads to another by steps of which only the last may come back to a path. -/
def LeadsOff (scope : Scope) (path : List AssetId) (a id : AssetId) : Prop :=
  ∃ b, Relation.ReflTransGen (scope.StepOff path) a b ∧ scope.Step b id

/-- A walk that comes to a target by a path gets to an asset if the target is in the scope and
is the asset or leads to it, the latter only if the target is not on the path. -/
def GetsTo (scope : Scope) (path : List AssetId) (target id : AssetId) : Prop :=
  scope.admits target = true ∧ (id = target ∨ target ∉ path ∧ scope.LeadsOff path target id)

/-- Off the empty path an asset leads to what is reached from it by a step or more. -/
theorem leadsOff_nil : scope.LeadsOff [] a id ↔ Relation.TransGen scope.Step a id := by
  have same : scope.StepOff [] = scope.Step := by
    funext a b
    simp [StepOff]
  rw [LeadsOff, same, Relation.TransGen.tail'_iff]

/-- Steps that lead away from an asset can be taken without coming back to it. -/
theorem reflTransGen_stepOff_cons (reach : Relation.ReflTransGen (scope.StepOff path) a b) :
    Relation.ReflTransGen (scope.StepOff (a :: path)) a b := by
  induction reach with
  | refl => exact .refl
  | @tail b c _ step ih =>
    by_cases back : c = a
    · rw [back]
    · exact ih.tail ⟨step.1, List.not_mem_cons_of_ne_of_not_mem back step.2⟩

/-- What an asset leads to is what a walk gets to by one of its dependencies, the asset being
put on the path. -/
theorem leadsOff_iff : scope.LeadsOff path a id ↔
    ∃ target ∈ scope.catalog.listed a, scope.GetsTo (a :: path) target id := by
  constructor
  · rintro ⟨b, reach, step⟩
    rcases (reflTransGen_stepOff_cons reach).cases_head with rfl | ⟨target, first, rest⟩
    · exact ⟨id, Catalog.mem_listed_iff.2 step.1, step.2, Or.inl rfl⟩
    · exact ⟨target, Catalog.mem_listed_iff.2 first.1.1, first.1.2,
        Or.inr ⟨first.2, b, rest, step⟩⟩
  · rintro ⟨target, edge, inside, rfl | ⟨off, b, reach, step⟩⟩
    · exact ⟨a, .refl, Catalog.mem_listed_iff.1 edge, inside⟩
    · have first : scope.StepOff path a target :=
        ⟨⟨Catalog.mem_listed_iff.1 edge, inside⟩, fun mem => off (List.mem_cons_of_mem _ mem)⟩
      have rest : Relation.ReflTransGen (scope.StepOff path) target b :=
        Relation.ReflTransGen.mono
          (fun _ _ step => ⟨step.1, fun mem => step.2 (List.mem_cons_of_mem _ mem)⟩) _ _ reach
      exact ⟨b, .head first rest, step⟩

end Scope

namespace Walk

variable {scope : Scope} {pack : Int} {path targets : List AssetId} {s : Store}

/-! ### Walks along paths -/

/-- The store after a walk into some targets. Each that is in the scope gets the pack, and
unless it is on the path it is put there while the walk goes into its dependencies. -/
def walkPaths (scope : Scope) (pack : Int) (path : List AssetId) :
    (targets : List AssetId) → Store → Store
  | [], s => s
  | target :: targets, s =>
    if !scope.admits target then walkPaths scope pack path targets s
    else
      let s := s.setPack target pack
      if _onPath : target ∈ path then walkPaths scope pack path targets s
      else
        walkPaths scope pack path targets
          (walkPaths scope pack (target :: path) (scope.catalog.listed target) s)
termination_by targets => (scope.unexpanded path, targets.length)
decreasing_by
  · exact Prod.Lex.right _ (by simp)
  · exact Prod.Lex.right _ (by simp)
  · rw [← Scope.edges_eq_listed]
    exact Scope.lex_of_new (fun _ => List.mem_cons_of_mem _) _onPath List.mem_cons_self
  · exact Prod.Lex.right _ (by simp)

open Classical in
/-- A walk that knows only its path gives the pack to what it gets to by its targets. -/
theorem walkPaths_eq_repack (scope : Scope) (pack : Int) (path targets : List AssetId) (s : Store) :
    walkPaths scope pack path targets s = s.repack fun id old =>
      if ∃ target ∈ targets, scope.GetsTo path target id then pack else old := by
  induction path, targets, s using walkPaths.induct scope pack with
  | case1 path s =>
    rw [walkPaths]
    simp [Store.repack_id]
  | case2 path target targets s outside ih =>
    rw [walkPaths, if_pos outside, ih]
    have nowhere : ∀ id, ¬ scope.GetsTo path target id := fun id gets => by
      simp [gets.1] at outside
    simp only [List.exists_mem_cons_iff, nowhere, false_or]
  | case3 path target targets s inside labelled onPath ih =>
    have marked : labelled = s.repack fun id old => if id = target then pack else old :=
      Store.setPack_eq_repack
    have entered : scope.admits target = true := by simpa using inside
    have here : ∀ id, scope.GetsTo path target id ↔ id = target := fun id => by
      simp [Scope.GetsTo, entered, onPath]
    rw [walkPaths, if_neg inside, dif_pos onPath, ih, marked, Store.repack_ite_repack_ite]
    simp only [List.exists_mem_cons_iff, here]
  | case4 path target targets s inside labelled off below _ ih =>
    have marked : labelled = s.repack fun id old => if id = target then pack else old :=
      Store.setPack_eq_repack
    have entered : scope.admits target = true := by simpa using inside
    have here : ∀ id, scope.GetsTo path target id ↔
        id = target ∨
          ∃ t ∈ scope.catalog.listed target, scope.GetsTo (target :: path) t id := fun id => by
      rw [← Scope.leadsOff_iff]
      simp only [Scope.GetsTo, entered, true_and, off, not_false_eq_true]
    rw [walkPaths, if_neg inside, dif_neg off, ih, below, marked, Store.repack_ite_repack_ite,
      Store.repack_ite_repack_ite]
    simp only [List.exists_mem_cons_iff, here, or_assoc]

/-- The descent from a root leaves the same store as the walk that goes into a dependency
whenever it is not on the current path, and so does the search along a stack. -/
theorem relabel_spread_eq_walkPaths (scope : Scope) (root : AssetId) (pack : Int) (s : Store) :
    (search scope pack root s).store =
        walkPaths scope pack [root] (scope.catalog.listed root) s ∧
      (spread scope root).relabel pack s =
        walkPaths scope pack [root] (scope.catalog.listed root) s := by
  have reached : ∀ id, (∃ target ∈ scope.catalog.listed root, scope.GetsTo [root] target id) ↔
      Relation.TransGen scope.Step root id := fun id => by
    rw [← Scope.leadsOff_iff, Scope.leadsOff_nil]
  have same : (spread scope root).relabel pack s =
      walkPaths scope pack [root] (scope.catalog.listed root) s := by
    rw [walkPaths_eq_repack, relabel_spread_eq_repack]
    classical
    simp only [reached]
  exact ⟨(search_eq_spread scope pack root s).1.trans same, same⟩

end Walk

end PackPlan
