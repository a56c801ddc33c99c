import PackPlan.Store
import PackPlan.Walk.Scope

/-!
# Descent along dependencies

From a root the pack spreads over everything that the root depends on. The descent
takes the dependencies of an asset in their order and goes into each before the next;
it looks up the dependencies of no asset twice, though it passes an asset as often as
there are dependencies on it.

## Main definitions

* `Walk.Trail` — what a descent passes, looks up and counts
* `Walk.descend` — the descent from pending assets
* `Walk.spread` — the descent from a root
* `Walk.cascade` — the packs of several roots, the lowest having the last word

## Main results

* `Walk.descend_of_not_admits`, `Walk.descend_of_seen`, `Walk.descend_of_new` — one step
  of a descent
* `Walk.descend_induction` — induction along a descent
* `Walk.descend_congr` — it does not matter in which order assets have been visited
-/

namespace PackPlan.Walk

/-- What a descent passes, looks up and counts. -/
structure Trail where
  /-- The assets that were passed, as often as that happened. -/
  passed : List AssetId := []
  /-- The assets whose dependencies were looked up. -/
  lookups : List AssetId := []
  /-- How many of these have dependencies. -/
  expanded : Nat := 0

/-- The trail of an asset that is only passed. -/
def Trail.pass (id : AssetId) (t : Trail) : Trail := { t with passed := id :: t.passed }

/-- The trail of an asset that is passed and looked up. -/
def Trail.visit (id : AssetId) (hasEdges : Bool) (t : Trail) : Trail :=
  { passed := id :: t.passed
    lookups := id :: t.lookups
    expanded := t.expanded + (if hasEdges then 1 else 0) }

/-- The descent from pending assets, the first being taken first. An asset that has been
visited is only passed. -/
def descend (scope : Scope) (visited : List AssetId) : (pending : List AssetId) → Trail
  | [] => {}
  | id :: pending =>
    if !scope.admits id then descend scope visited pending
    else if _seen : id ∈ visited then (descend scope visited pending).pass id
    else if _leaf : scope.edges id = [] then
      (descend scope (id :: visited) pending).visit id false
    else (descend scope (id :: visited) (scope.edges id ++ pending)).visit id true
termination_by pending => (scope.unexpanded visited, pending.length)
decreasing_by
  · exact Prod.Lex.right _ (by simp)
  · exact Prod.Lex.right _ (by simp)
  · have le : scope.unexpanded (id :: visited) ≤ scope.unexpanded visited := Scope.unexpanded_le
    rcases Nat.lt_or_eq_of_le le with lt | eq
    · exact Prod.Lex.left _ _ lt
    · rw [eq]
      exact Prod.Lex.right _ (by simp)
  · exact Prod.Lex.left _ _ (Scope.unexpanded_lt _leaf _seen)

/-! ### The steps of a descent

A leaf is an asset whose dependencies happen to be none, so what is new takes one step
whether or not it has any. -/

section Steps

variable {scope : Scope} {visited pending : List AssetId} {id : AssetId}

@[simp] theorem descend_nil : descend scope visited [] = {} := by
  rw [descend]

theorem descend_of_not_admits (outside : scope.admits id = false) :
    descend scope visited (id :: pending) = descend scope visited pending := by
  rw [descend, if_pos (by simp [outside])]

theorem descend_of_seen (inside : scope.admits id = true) (seen : id ∈ visited) :
    descend scope visited (id :: pending) = (descend scope visited pending).pass id := by
  rw [descend, if_neg (by simp [inside]), dif_pos seen]

theorem descend_of_new (inside : scope.admits id = true) (isNew : id ∉ visited) :
    descend scope visited (id :: pending) =
      (descend scope (id :: visited) (scope.edges id ++ pending)).visit id
        (scope.edges id ≠ []) := by
  rw [descend, if_neg (by simp [inside]), dif_neg isNew]
  split
  · next leaf => simp [leaf]
  · next inner => simp [inner]

/-- Induction along a descent: an asset is outside the scope, or has been visited, or is
visited now and its dependencies come before what was pending. -/
@[elab_as_elim] theorem descend_induction {motive : List AssetId → List AssetId → Prop}
    (scope : Scope) (nil : ∀ visited, motive visited [])
    (outside : ∀ visited id pending, scope.admits id = false →
      motive visited pending → motive visited (id :: pending))
    (seen : ∀ visited id pending, scope.admits id = true → id ∈ visited →
      motive visited pending → motive visited (id :: pending))
    (new : ∀ visited id pending, scope.admits id = true → id ∉ visited →
      motive (id :: visited) (scope.edges id ++ pending) → motive visited (id :: pending))
    (visited pending : List AssetId) : motive visited pending := by
  induction visited, pending using descend.induct scope with
  | case1 visited => exact nil visited
  | case2 visited id pending skip ih => exact outside visited id pending (by simpa using skip) ih
  | case3 visited id pending enter mem ih =>
    exact seen visited id pending (by simpa using enter) mem ih
  | case4 visited id pending enter fresh leaf ih =>
    exact new visited id pending (by simpa using enter) fresh (by rwa [leaf, List.nil_append])
  | case5 visited id pending enter fresh inner ih =>
    exact new visited id pending (by simpa using enter) fresh ih

/-- It matters which assets have been visited, not in which order. -/
theorem descend_congr {visited' : List AssetId} (same : ∀ a, a ∈ visited ↔ a ∈ visited') :
    descend scope visited pending = descend scope visited' pending := by
  induction visited, pending using descend_induction scope generalizing visited' with
  | nil visited => rw [descend_nil, descend_nil]
  | outside visited id pending outside ih =>
    rw [descend_of_not_admits outside, descend_of_not_admits outside, ih same]
  | seen visited id pending inside seen ih =>
    rw [descend_of_seen inside seen, descend_of_seen inside ((same id).1 seen), ih same]
  | new visited id pending inside isNew ih =>
    have same' : ∀ a, a ∈ id :: visited ↔ a ∈ id :: visited' := fun a => by
      rw [List.mem_cons, List.mem_cons, same]
    rw [descend_of_new inside isNew, descend_of_new inside (mt (same id).2 isNew), ih same']

end Steps

/-- The descent from a root. The root itself is passed only if the descent comes back
to it. -/
def spread (scope : Scope) (root : AssetId) : Trail :=
  let edges := scope.edges root
  let t := descend scope [root] edges
  { t with
    lookups := root :: t.lookups
    expanded := if edges = [] then 0 else t.expanded + 1 }

/-- The store with a pack for all assets that a descent passes. -/
def Trail.relabel (t : Trail) (pack : Int) (s : Store) : Store :=
  t.passed.foldl (·.setPack · pack) s

/-- The store with the pack of a root for the root and everything it depends on, and the
assets that were looked up. A root that is not valid or has no record is passed over. -/
def settleRoot (scope : Scope) (pack : Int) (state : Store × List AssetId) (root : AssetId) :
    Store × List AssetId :=
  let (s, lookups) := state
  if !root.isValid || !s.contains root then (s, lookups)
  else
    let t := spread scope root
    (t.relabel pack (s.setPack root pack), lookups ++ t.lookups)

/-- The store with the packs of several roots, and the assets that were looked up. The
greatest pack comes first, so the lowest has the last word. -/
def cascade (scope : Scope) (roots : Table Int (List AssetId)) (s : Store) :
    Store × List AssetId :=
  (roots.sortKeys (· ≥ ·)).entries.foldl
    (fun state group => (AssetId.sort group.2).foldl (settleRoot scope group.1) state) (s, [])

end PackPlan.Walk
