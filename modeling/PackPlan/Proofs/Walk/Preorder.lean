import PackPlan.Proofs.Walk.Spread
import PackPlan.Proofs.Walk.Stack

/-!
# The order of look-ups

A recursive search that remembers all assets it has found lists them as it finds them: an
asset, then what is found from its dependencies one after the other. This is the order in
which a descent looks assets up, and none is looked up twice. Those that turn out to have
dependencies are the ones it counts.

## Main definitions

* `Walk.preorderFrom`, `Walk.preorder` — the assets that a recursive search finds, in order

## Main results

* `mem_lookups_descend` — a descent looks up what it passes, but for what had been visited
* `append_lookups_descend` — the look-ups of a descent go on from those of a recursive search
* `lookups_spread` — which assets the descent from a root looks up, in which order, and how
  many of them it counts
-/

namespace PackPlan.Walk

variable {scope : Scope} {visited pending found targets : List AssetId} {id root : AssetId}

/-! ### Each asset once -/

/-- A descent looks up what it passes, but for what had been visited before. -/
theorem mem_lookups_descend : id ∈ (descend scope visited pending).lookups ↔
    id ∈ (descend scope visited pending).passed ∧ id ∉ visited := by
  induction visited, pending using descend_induction scope with
  | nil visited => simp
  | outside visited a pending outside ih => rw [descend_of_not_admits outside, ih]
  | seen visited a pending inside seen ih =>
    rw [descend_of_seen inside seen]
    simp only [Trail.pass, ih, List.mem_cons]
    constructor
    · rintro ⟨passed, isNew⟩
      exact ⟨Or.inr passed, isNew⟩
    · rintro ⟨rfl | passed, isNew⟩
      · exact absurd seen isNew
      · exact ⟨passed, isNew⟩
  | new visited a pending inside isNew ih =>
    rw [descend_of_new inside isNew]
    simp only [Trail.visit, List.mem_cons, ih, not_or]
    by_cases same : id = a
    · simp [same, isNew]
    · simp [same]

theorem nodup_lookups_descend : (descend scope visited pending).lookups.Nodup := by
  induction visited, pending using descend_induction scope with
  | nil visited => simp
  | outside visited a pending outside ih => rwa [descend_of_not_admits outside]
  | seen visited a pending inside seen ih => rwa [descend_of_seen inside seen]
  | new visited a pending inside isNew ih =>
    rw [descend_of_new inside isNew]
    -- the rest of the descent knows the asset as visited
    exact List.nodup_cons.2 ⟨fun again => (mem_lookups_descend.1 again).2 List.mem_cons_self, ih⟩

/-- A descent counts the assets with dependencies among those that it looks up. -/
theorem expanded_descend : (descend scope visited pending).expanded =
    ((descend scope visited pending).lookups.filter fun id => scope.edges id ≠ []).length := by
  induction visited, pending using descend_induction scope with
  | nil visited => simp
  | outside visited a pending outside ih => rwa [descend_of_not_admits outside]
  | seen visited a pending inside seen ih => rwa [descend_of_seen inside seen]
  | new visited a pending inside isNew ih =>
    rw [descend_of_new inside isNew]
    simp only [Trail.visit, ih, List.filter_cons]
    by_cases leaf : scope.edges a = [] <;> simp [leaf]

/-! ### The order of a recursive search -/

/-- The assets found by a recursive search, in addition to those found before: each target
in turn that is in the scope and has not been found, and right after it what is found from
its dependencies. -/
def preorderFrom (scope : Scope) (found : List AssetId) :
    (targets : List AssetId) → { all : List AssetId // found ⊆ all }
  | [] => ⟨found, List.Subset.refl found⟩
  | target :: targets =>
    if _new : scope.admits target ∧ target ∉ found then
      let below := preorderFrom scope (found ++ [target]) (scope.catalog.listed target)
      let all := preorderFrom scope below.1 targets
      ⟨all.1, List.Subset.trans (List.Subset.trans (List.subset_append_left _ _) below.2) all.2⟩
    else preorderFrom scope found targets
termination_by targets => (scope.unexpanded found, targets.length)
decreasing_by
  · rw [← Scope.edges_eq_listed]
    exact Scope.lex_of_new (List.subset_append_left _ _) _new.2 (by simp)
  · refine Scope.lex_of_le_of_lt (Scope.length_filter_not_mem_le _ ?_) (by simp)
    exact List.Subset.trans (List.subset_append_left _ _) below.2
  · exact Prod.Lex.right _ (by simp)

/-- The assets that a recursive search finds from a root, the root first. -/
def preorder (scope : Scope) (root : AssetId) : List AssetId :=
  (preorderFrom scope [root] (scope.catalog.listed root)).1

/-- A descent looks up what a recursive search finds from its first targets, and then what it
looks up from the others when all this has been visited. -/
theorem append_lookups_descend (scope : Scope) (found targets pending : List AssetId) :
    found ++ (descend scope found (targets ++ pending)).lookups =
      (preorderFrom scope found targets).1 ++
        (descend scope (preorderFrom scope found targets).1 pending).lookups := by
  induction found, targets using preorderFrom.induct scope generalizing pending with
  | case1 found => rw [preorderFrom, List.nil_append]
  | case2 found target targets isNew below ihBelow ihRest =>
    have known : ∀ a, a ∈ target :: found ↔ a ∈ found ++ [target] := by simp [or_comm]
    rw [preorderFrom, dif_pos isNew, List.cons_append, descend_of_new isNew.1 isNew.2,
      descend_congr known, Scope.edges_eq_listed]
    -- the dependencies of the target come before the targets after it
    rw [← ihRest, ← ihBelow, List.append_assoc]
    rfl
  | case3 found target targets old ih =>
    rw [preorderFrom, dif_neg old, ← ih, List.cons_append]
    cases inside : scope.admits target with
    | false => rw [descend_of_not_admits inside]
    | true =>
      rw [descend_of_seen inside (Decidable.not_not.1 fun isNew => old ⟨inside, isNew⟩)]
      rfl

/-- The descent from a root looks up what a recursive search finds that remembers all it has
found, in the same order: the root and all that is reached from it, each asset once. Of these
it counts the assets that have dependencies. The search along a stack does the same. -/
theorem lookups_spread (scope : Scope) (root : AssetId) :
    (spread scope root).lookups = preorder scope root ∧
    (spread scope root).lookups.Nodup ∧
    (∀ id, id ∈ (spread scope root).lookups ↔ Relation.ReflTransGen scope.Step root id) ∧
    (spread scope root).expanded =
      ((spread scope root).lookups.filter fun id => scope.catalog.listed id ≠ []).length ∧
    ∀ pack s, (search scope pack root s).lookups = (spread scope root).lookups ∧
      (search scope pack root s).expanded = (spread scope root).expanded := by
  refine ⟨?order, ?once, ?reached, ?counted, fun pack s => (search_eq_spread scope pack root s).2⟩
  case order =>
    have same := append_lookups_descend scope [root] (scope.catalog.listed root) []
    rw [descend_nil, List.append_nil] at same
    simpa [spread, preorder, Scope.edges_eq_listed] using same
  case once =>
    exact List.nodup_cons.2
      ⟨fun again => (mem_lookups_descend.1 again).2 List.mem_cons_self, nodup_lookups_descend⟩
  case reached =>
    intro id
    rw [Relation.reflTransGen_iff_eq_or_transGen, ← mem_passed_spread]
    simp only [spread, List.mem_cons, mem_lookups_descend]
    by_cases same : id = root <;> simp [same]
  case counted =>
    simp only [← Scope.edges_eq_listed]
    by_cases leaf : scope.edges root = []
    · simp [spread, leaf]
    · simp [spread, leaf, expanded_descend]

end PackPlan.Walk
