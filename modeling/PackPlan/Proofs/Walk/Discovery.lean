import Mathlib.Data.List.Nodup
import PackPlan.Proofs.Walk.Found

/-!
# How a closure is found

While a closure is found, an asset is listed when it is put on the work list and looked up
when it is taken from there. So no asset is listed twice, every asset listed is looked up
once, and an asset that is no seed is listed behind one that depends on it.

## Main definitions

* `Walk.Introduced` — every asset of a list that is no seed comes behind one that names it
* `Walk.Discovery` — what has been listed and what has been looked up agree

## Main results

* `Discovery.drain` — emptying the work list keeps lists and look-ups together
* `closure_discovery` — so they are together in the end
* `closure_listing` — what a closure lists, in which order, and what it looks up
-/

namespace PackPlan.Walk

variable {scope : Scope} {c : Closure} {seeds waiting found targets ids fresh : List AssetId}
  {id seed : AssetId}

/-! ### New targets -/

theorem nodup_newTargets : (newTargets scope found targets).Nodup := by
  induction targets generalizing found with
  | nil => exact List.nodup_nil
  | cons a targets ih =>
    rw [newTargets]
    split
    · -- the target counts as found for those after it
      exact List.nodup_cons.2 ⟨fun again => (mem_newTargets.1 again).2.2 List.mem_cons_self, ih⟩
    · exact ih

theorem nodup_append_newTargets (nodup : found.Nodup) :
    (found ++ newTargets scope found targets).Nodup :=
  List.nodup_append'.2 ⟨nodup, nodup_newTargets, fun _ old new => (mem_newTargets.1 new).2.2 old⟩

/-! ### Where an asset comes from -/

/-- Every asset of a list that is no seed comes behind one that depends on it. -/
def Introduced (scope : Scope) (seeds ids : List AssetId) : Prop :=
  ∀ before id after, ids = before ++ id :: after → id ∉ seeds →
    ∃ a ∈ before, scope.catalog.DependsOn a id

theorem Introduced.append (h : Introduced scope seeds ids)
    (new : ∀ id ∈ fresh, id ∉ seeds → ∃ a ∈ ids, scope.catalog.DependsOn a id) :
    Introduced scope seeds (ids ++ fresh) := by
  intro before id after split notSeed
  have ofNew : ids ⊆ before → id ∈ fresh → ∃ a ∈ before, scope.catalog.DependsOn a id := by
    intro listed mem
    obtain ⟨a, mem, edge⟩ := new id mem notSeed
    exact ⟨a, listed mem, edge⟩
  rcases List.append_eq_append_iff.1 split with ⟨mid, rfl, rest⟩ | ⟨mid, rfl, rest⟩
  · exact ofNew (List.subset_append_left _ _) (by simp [rest])
  · cases mid with
    | nil =>
      rw [List.nil_append] at rest
      exact ofNew (by simp) (rest ▸ List.mem_cons_self)
    | cons a mid =>
      obtain ⟨rfl, -⟩ := List.cons.inj rest
      exact h before id mid rfl notSeed

/-! ### The work list -/

/-- What a closure lists and what it looks up agree, but for what still waits. -/
structure Discovery (scope : Scope) (seeds : List AssetId) (c : Closure)
    (waiting : List AssetId) : Prop where
  /-- No asset is listed twice. -/
  nodup : c.ids.Nodup
  /-- What is listed has been looked up or waits for it. -/
  perm : (c.lookups ++ waiting).Perm c.ids
  /-- An asset that is no seed is listed behind one that depends on it. -/
  introduced : Introduced scope seeds c.ids

namespace Discovery

/-- Looking up the first asset that waits. -/
theorem step (h : Discovery scope seeds c (id :: waiting)) :
    Discovery scope seeds ⟨c.ids ++ newTargets scope c.ids (scope.edges id), c.lookups ++ [id]⟩
      ((newTargets scope c.ids (scope.edges id)).reverse ++ waiting) where
  nodup := nodup_append_newTargets h.nodup
  perm := by
    set new := newTargets scope c.ids (scope.edges id)
    have behind : (new.reverse ++ waiting).Perm (waiting ++ new) :=
      List.perm_append_comm.trans ((List.reverse_perm new).append_left waiting)
    calc ((c.lookups ++ [id]) ++ (new.reverse ++ waiting)).Perm
          ((c.lookups ++ [id]) ++ (waiting ++ new)) := behind.append_left _
      _ = (c.lookups ++ id :: waiting) ++ new := by simp
      List.Perm _ (c.ids ++ new) := h.perm.append_right new
  introduced := by
    have known : id ∈ c.ids := h.perm.subset (by simp)
    exact h.introduced.append fun b new _ =>
      ⟨id, known, Catalog.mem_edges_iff.1 (mem_newTargets.1 new).1⟩

theorem drain (h : Discovery scope seeds c waiting) :
    Discovery scope seeds (drain scope c waiting) [] := by
  induction c, waiting using drain.induct scope with
  | case1 c => rwa [Walk.drain]
  | case2 c id waiting new ih =>
    rw [Walk.drain]
    exact ih h.step

theorem addSeed (h : Discovery scope seeds c []) (isSeed : seed ∈ seeds) :
    Discovery scope seeds (addSeed scope c seed) [] := by
  unfold Walk.addSeed
  split
  · next new =>
    refine drain ⟨?nodup, ?perm, ?introduced⟩
    case nodup => exact List.nodup_append'.2 ⟨h.nodup, by simp, by simp [new.2]⟩
    case perm =>
      have perm := h.perm
      rw [List.append_nil] at perm
      exact perm.append_right [seed]
    case introduced =>
      refine h.introduced.append fun id mem notSeed => ?_
      rw [List.mem_singleton.1 mem] at notSeed
      exact absurd isSeed notSeed
  · exact h

end Discovery

/-- A closure lists no asset twice, looks up what it lists, and lists every asset that is no
seed behind one that depends on it. -/
theorem closure_discovery (scope : Scope) (seeds : List AssetId) :
    Discovery scope seeds (closure scope seeds) [] := by
  have run : ∀ (c : Closure) (left : List AssetId), left ⊆ seeds → Discovery scope seeds c [] →
      Discovery scope seeds (left.foldl (Walk.addSeed scope) c) [] := by
    intro c left sub h
    induction left generalizing c with
    | nil => exact h
    | cons seed left ih =>
      obtain ⟨isSeed, sub⟩ := List.cons_subset.1 sub
      exact ih _ sub (h.addSeed isSeed)
  refine run {} seeds (List.Subset.refl _) ⟨List.nodup_nil, List.Perm.refl _, ?_⟩
  intro before id after split
  simp at split

/-- A closure lists exactly the assets that its seeds in the scope lead to, those seeds among
them, each once. An asset that is no seed comes behind one that depends on it. Looked up are
the assets listed, each once, and no other. Which assets are listed depends neither on the
order of the seeds nor on how often each is given. -/
theorem closure_listing (scope : Scope) (seeds : List AssetId) :
    (closure scope seeds).ids.Nodup ∧
    (∀ id, id ∈ (closure scope seeds).ids ↔
      ∃ seed ∈ seeds, scope.admits seed = true ∧ Relation.ReflTransGen scope.Step seed id) ∧
    (∀ before id after, (closure scope seeds).ids = before ++ id :: after → id ∉ seeds →
      ∃ a ∈ before, scope.catalog.DependsOn a id) ∧
    (closure scope seeds).lookups.Perm (closure scope seeds).ids ∧
    ∀ seeds', (∀ id, id ∈ seeds' ↔ id ∈ seeds) →
      ∀ id, id ∈ (closure scope seeds').ids ↔ id ∈ (closure scope seeds).ids := by
  have found := closure_discovery scope seeds
  refine ⟨found.nodup, fun id => mem_closure, found.introduced, ?_, fun seeds' same id => ?_⟩
  · simpa using found.perm
  · simp only [mem_closure, same]

end PackPlan.Walk
