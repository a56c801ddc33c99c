import PackPlan.Walk.Descent

/-!
# A descent along a stack

A search keeps the path to where it stands on a stack: the assets of the path, each with
those of its dependencies that are still to be taken. An asset is gone into unless it is on
the path or finished, the two being kept apart. What such a search makes of a store, which
assets it looks up and how many it counts is what the descent from the same root passes,
looks up and counts; the assets on the path and the finished ones together are those that
the descent has visited.

## Main definitions

* `Walk.Search` — a search between two steps
* `Search.step?`, `Search.run` — the next step, and all that are left
* `Walk.search` — the search from a root

## Main results

* `Search.effect_of_step?` — what a step can do
* `Search.lex_of_step?` — steps come to an end
* `Search.outcome_of_step?` — no step changes what a search comes to
* `search_eq_spread` — a search does what the descent from its root does
-/

namespace PackPlan.Walk

/-- A search along a stack, between two of its steps. -/
structure Search where
  /-- The store, with the packs that have been set. -/
  store : Store
  /-- The assets of the path, the last of them first, each with its dependencies that are
  still to be taken. -/
  stack : List (AssetId × List AssetId) := []
  /-- The assets on the path. -/
  onStack : List AssetId := []
  /-- The assets that are not gone into any more. -/
  finished : List AssetId := []
  /-- The assets whose dependencies were looked up, in order. -/
  lookups : List AssetId := []
  /-- How many assets were gone into. -/
  expanded : Nat := 0

namespace Search

variable {scope : Scope} {pack : Int} {st st' : Search} {onStack finished : List AssetId}
  {a id target : AssetId}

/-- A dependency gets the pack. Then it is gone into, unless it is on the path, finished, or
has no dependencies, in which case it is finished at once. -/
def take (scope : Scope) (pack : Int) (target : AssetId) (st : Search) : Search :=
  let labelled := { st with store := st.store.setPack target pack }
  if target ∈ st.onStack ∨ target ∈ st.finished then labelled
  else if scope.edges target = [] then
    { labelled with
      finished := target :: st.finished
      lookups := st.lookups ++ [target] }
  else
    { labelled with
      stack := (target, scope.edges target) :: st.stack
      onStack := target :: st.onStack
      lookups := st.lookups ++ [target]
      expanded := st.expanded + 1 }

/-- The next step: the asset on top takes its next dependency, which is passed over if it is
not in the scope, or is finished if there is none left. -/
def step? (scope : Scope) (pack : Int) (st : Search) : Option Search :=
  match st.stack with
  | [] => none
  | (id, []) :: stack =>
    some { st with
      stack
      onStack := st.onStack.filter (· ≠ id)
      finished := id :: st.finished }
  | (id, target :: targets) :: stack =>
    let st := { st with stack := (id, targets) :: stack }
    some (if scope.admits target then st.take scope pack target else st)

/-- What a step can do. -/
inductive Effect (scope : Scope) (pack : Int) (st : Search) : Search → Prop
  /-- The asset on top is finished. -/
  | leave {id stack} (top : st.stack = (id, []) :: stack) :
      Effect scope pack st { st with
        stack
        onStack := st.onStack.filter (· ≠ id)
        finished := id :: st.finished }
  /-- A dependency outside the scope is passed over. -/
  | skip {id target targets stack} (top : st.stack = (id, target :: targets) :: stack)
      (outside : scope.admits target = false) :
      Effect scope pack st { st with stack := (id, targets) :: stack }
  /-- A dependency on the path or finished gets the pack. -/
  | label {id target targets stack} (top : st.stack = (id, target :: targets) :: stack)
      (inside : scope.admits target = true) (seen : target ∈ st.onStack ++ st.finished) :
      Effect scope pack st { st with
        store := st.store.setPack target pack
        stack := (id, targets) :: stack }
  /-- A new dependency that has none itself gets the pack and is finished. -/
  | finish {id target targets stack} (top : st.stack = (id, target :: targets) :: stack)
      (inside : scope.admits target = true) (isNew : target ∉ st.onStack ++ st.finished)
      (leaf : scope.edges target = []) :
      Effect scope pack st { st with
        store := st.store.setPack target pack
        stack := (id, targets) :: stack
        finished := target :: st.finished
        lookups := st.lookups ++ [target] }
  /-- A new dependency that has some gets the pack and is gone into. -/
  | enter {id target targets stack} (top : st.stack = (id, target :: targets) :: stack)
      (inside : scope.admits target = true) (isNew : target ∉ st.onStack ++ st.finished)
      (inner : scope.edges target ≠ []) :
      Effect scope pack st { st with
        store := st.store.setPack target pack
        stack := (target, scope.edges target) :: (id, targets) :: stack
        onStack := target :: st.onStack
        lookups := st.lookups ++ [target]
        expanded := st.expanded + 1 }

theorem effect_of_step? (next : st.step? scope pack = some st') : Effect scope pack st st' := by
  unfold step? at next
  split at next
  · cases next
  · next id stack top =>
    cases next
    exact .leave top
  · next id target targets stack top =>
    obtain rfl := Option.some_inj.1 next
    cases inside : scope.admits target with
    | false => exact .skip top inside
    | true =>
      rw [if_pos rfl, take]
      by_cases seen : target ∈ st.onStack ++ st.finished
      · rw [if_pos (List.mem_append.1 seen)]
        exact .label top inside seen
      · rw [if_neg (mt List.mem_append.2 seen)]
        by_cases leaf : scope.edges target = []
        · rw [if_pos leaf]
          exact .finish top inside seen leaf
        · rw [if_neg leaf]
          exact .enter top inside seen leaf

theorem stack_eq_nil_of_step? (done : st.step? scope pack = none) : st.stack = [] := by
  unfold step? at done
  split at done
  · next empty => exact empty
  · cases done
  · cases done

/-! ### Assets that have been visited -/

/-- Finishing an asset at once adds it to those visited. -/
theorem mem_append_cons : a ∈ onStack ++ target :: finished ↔
    a ∈ target :: (onStack ++ finished) := by
  simp only [List.mem_append, List.mem_cons, or_left_comm]

/-- Finishing an asset of the path loses none of those visited. -/
theorem mem_filter_append_cons : a ∈ onStack.filter (· ≠ id) ++ id :: finished ↔
    a ∈ id :: (onStack ++ finished) := by
  by_cases same : a = id <;> simp [same]

/-! ### Steps come to an end -/

/-- How many dependencies and assets are on the stack. -/
def height (st : Search) : Nat := (st.stack.flatMap Prod.snd).length + st.stack.length

/-- With every step there is less to be gone into, or as much and less on the stack. -/
theorem lex_of_step? (next : st.step? scope pack = some st') :
    Prod.Lex (· < ·) (· < ·)
      (scope.unexpanded (st'.onStack ++ st'.finished), st'.height)
      (scope.unexpanded (st.onStack ++ st.finished), st.height) := by
  cases effect_of_step? next with
  | leave top =>
    refine Scope.lex_of_le_of_lt (Scope.length_filter_not_mem_le _ ?_) (by simp [height, top])
    exact fun a mem => mem_filter_append_cons.2 (List.mem_cons_of_mem _ mem)
  | skip top outside => exact Scope.lex_of_le_of_lt Nat.le.refl (by simp [height, top])
  | label top inside seen => exact Scope.lex_of_le_of_lt Nat.le.refl (by simp [height, top])
  | finish top inside isNew leaf =>
    refine Scope.lex_of_le_of_lt (Scope.length_filter_not_mem_le _ ?_) (by simp [height, top])
    exact fun a mem => mem_append_cons.2 (List.mem_cons_of_mem _ mem)
  | enter top inside isNew inner => exact .left _ _ (Scope.unexpanded_lt inner isNew)

/-- The search after all its steps. -/
def run (scope : Scope) (pack : Int) (st : Search) : Search :=
  match _next : st.step? scope pack with
  | none => st
  | some st' => run scope pack st'
termination_by (scope.unexpanded (st.onStack ++ st.finished), st.height)
decreasing_by exact lex_of_step? _next

/-! ### What a search comes to -/

/-- Every asset on the stack counts as visited. -/
def Covered (st : Search) : Prop := ∀ frame ∈ st.stack, frame.1 ∈ st.onStack ++ st.finished

/-- Taking a dependency off the stack leaves its assets as they are. -/
theorem Covered.advance {targets : List AssetId} {stack : List (AssetId × List AssetId)}
    (h : Covered st) (top : st.stack = (id, target :: targets) :: stack) :
    ∀ frame ∈ (id, targets) :: stack, frame.1 ∈ st.onStack ++ st.finished := by
  rw [Covered, top, List.forall_mem_cons] at h
  exact List.forall_mem_cons.2 h

/-- Every step keeps the assets on the stack among those visited. -/
theorem Covered.of_step? (h : Covered st) (next : st.step? scope pack = some st') :
    Covered st' := by
  intro frame mem
  cases effect_of_step? next with
  | leave top =>
    have before := h frame (top ▸ List.mem_cons_of_mem _ mem)
    exact mem_filter_append_cons.2 (List.mem_cons_of_mem _ before)
  | skip top => exact h.advance top frame mem
  | label top => exact h.advance top frame mem
  | finish top => exact mem_append_cons.2 (List.mem_cons_of_mem _ (h.advance top frame mem))
  | enter top =>
    rcases List.mem_cons.1 mem with rfl | mem
    · exact List.mem_cons_self
    · exact List.mem_cons_of_mem _ (h.advance top frame mem)

/-- The store, the assets looked up and the number of those gone into, if what a search has
still to take is left to the descent. -/
def outcome (scope : Scope) (pack : Int) (st : Search) : Store × List AssetId × Nat :=
  let t := descend scope (st.onStack ++ st.finished) (st.stack.flatMap Prod.snd)
  (t.relabel pack st.store, st.lookups ++ t.lookups, st.expanded + t.expanded)

/-- No step changes what a search comes to. -/
theorem outcome_of_step? (h : Covered st) (next : st.step? scope pack = some st') :
    st'.outcome scope pack = st.outcome scope pack := by
  cases effect_of_step? next with
  | @leave id stack top =>
    have known : id ∈ st.onStack ++ st.finished := h (id, []) (top ▸ List.mem_cons_self)
    have same : ∀ a, a ∈ st.onStack.filter (· ≠ id) ++ id :: st.finished ↔
        a ∈ st.onStack ++ st.finished := fun a => by
      rw [mem_filter_append_cons, List.mem_cons, or_iff_right_of_imp fun same => same ▸ known]
    simp only [outcome, top, List.flatMap_cons, List.nil_append, descend_congr same]
  | skip top outside =>
    simp only [outcome, top, List.flatMap_cons, List.cons_append, descend_of_not_admits outside]
  | label top inside seen =>
    simp only [outcome, top, List.flatMap_cons, List.cons_append, descend_of_seen inside seen]
    rfl
  | finish top inside isNew leaf =>
    simp only [outcome, top, List.flatMap_cons, List.cons_append, descend_of_new inside isNew,
      leaf, List.nil_append, descend_congr fun _ => mem_append_cons]
    simp [Trail.visit, Trail.relabel]
  | enter top inside isNew inner =>
    simp only [outcome, top, List.flatMap_cons, List.cons_append, descend_of_new inside isNew]
    simp [Trail.visit, Trail.relabel, inner]
    omega

/-- A search with all its steps comes to what it came to before, and has nothing left. -/
theorem outcome_eq_run (scope : Scope) (pack : Int) (h : Covered st) : st.outcome scope pack =
    ((st.run scope pack).store, (st.run scope pack).lookups, (st.run scope pack).expanded) := by
  induction st using run.induct scope pack with
  | case1 st done =>
    rw [run, done]
    simp [outcome, stack_eq_nil_of_step? done, Trail.relabel]
  | case2 st st' next ih =>
    rw [run, next, ← outcome_of_step? h next, ih (h.of_step? next)]

/-- A search that has gone into a root and taken none of its dependencies. -/
def start (scope : Scope) (root : AssetId) (s : Store) : Search where
  store := s
  stack := [(root, scope.edges root)]
  onStack := [root]
  lookups := [root]
  expanded := 1

theorem covered_start (scope : Scope) (root : AssetId) (s : Store) :
    Covered (start scope root s) := by
  intro frame mem
  obtain rfl := List.mem_singleton.1 mem
  exact List.mem_cons_self

end Search

/-- The search from a root, which is not gone into if it has no dependencies. -/
def search (scope : Scope) (pack : Int) (root : AssetId) (s : Store) : Search :=
  if scope.edges root = [] then { store := s, lookups := [root] }
  else (Search.start scope root s).run scope pack

/-- A search from a root sets the packs that are set along the descent from the root, makes
the same look-ups in the same order and counts the same assets. -/
theorem search_eq_spread (scope : Scope) (pack : Int) (root : AssetId) (s : Store) :
    (search scope pack root s).store = (spread scope root).relabel pack s ∧
    (search scope pack root s).lookups = (spread scope root).lookups ∧
    (search scope pack root s).expanded = (spread scope root).expanded := by
  by_cases leaf : scope.edges root = []
  · rw [search, if_pos leaf]
    simp [spread, leaf, Trail.relabel]
  · rw [search, if_neg leaf, spread, if_neg leaf]
    have comes := Search.outcome_eq_run scope pack (Search.covered_start scope root s)
    simp only [Search.outcome, Search.start, List.append_nil, List.flatMap_cons, List.flatMap_nil,
      Prod.mk.injEq] at comes
    obtain ⟨store, lookups, expanded⟩ := comes
    exact ⟨store.symm, lookups.symm, expanded.symm.trans (Nat.add_comm _ _)⟩

end PackPlan.Walk
