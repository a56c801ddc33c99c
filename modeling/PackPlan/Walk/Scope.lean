import PackPlan.Catalog.CatalogSet

/-!
# The scope of a walk

A walk goes from asset to asset along dependencies. Its scope is a catalog, which has
the dependencies, and the assets to be passed over. Assets that are not valid are
passed over as well.

## Main definitions

* `PackPlan.Scope` — a catalog and what to pass over in it
* `Scope.admits` — whether a walk enters an asset
* `Scope.edges` — the dependencies of an asset
* `Scope.unexpanded`, `Scope.undiscovered` — what a walk has still before it

## Main results

* `unexpanded_lt`, `undiscovered_lt` — what is before a walk becomes less with every
  step, so walks end
-/

namespace PackPlan

/-- A catalog and what a walk passes over in it. -/
structure Scope where
  /-- The catalog that has the dependencies. -/
  catalog : Catalog
  /-- The assets to be passed over. -/
  exclusions : Exclusions := {}

namespace Scope

variable {scope : Scope} {id : AssetId} {visited found fresh : List AssetId}

/-- Whether an asset is to be passed over. -/
def excludes (scope : Scope) (id : AssetId) : Bool :=
  scope.exclusions.ids.contains id ||
    scope.exclusions.patterns.any (scope.catalog.matchesPattern id)

/-- Whether a walk enters an asset. -/
def admits (scope : Scope) (id : AssetId) : Bool := id.isValid && !scope.excludes id

/-- The dependencies of an asset; one whose dependencies cannot be looked up has none. -/
def edges (scope : Scope) (id : AssetId) : List AssetId := scope.catalog.edges id

/-- How many assets with dependencies have not been visited. -/
def unexpanded (scope : Scope) (visited : List AssetId) : Nat :=
  (scope.catalog.dependencies.keys.filter (· ∉ visited)).length

/-- How many occurrences of assets among dependencies have not been found. -/
def undiscovered (scope : Scope) (found : List AssetId) : Nat :=
  (scope.catalog.dependencies.values.flatten.filter (· ∉ found)).length

/-! ### Walks end -/

/-- An asset with dependencies is one of the catalog's. -/
theorem mem_keys_of_edges (h : scope.edges id ≠ []) : id ∈ scope.catalog.dependencies.keys := by
  refine Decidable.byContradiction fun absent => h ?_
  have none := Table.get?_eq_none.2 absent
  simp [edges, Catalog.edges, Catalog.dependencies?, none]

/-- A longer filter condition keeps less. -/
theorem length_filter_not_mem_le (l : List AssetId) (h : ∀ a ∈ visited, a ∈ found) :
    (l.filter (· ∉ found)).length ≤ (l.filter (· ∉ visited)).length := by
  rw [← List.countP_eq_length_filter, ← List.countP_eq_length_filter]
  exact List.countP_mono_left fun a _ ha => by
    simp only [decide_eq_true_eq] at ha ⊢
    exact fun hv => ha (h a hv)

/-- A longer filter condition keeps less, and strictly less if it drops a member. -/
theorem length_filter_not_mem_lt {l : List AssetId} (h : ∀ a ∈ visited, a ∈ found)
    (mem : id ∈ l) (isNew : id ∉ visited) (seen : id ∈ found) :
    (l.filter (· ∉ found)).length < (l.filter (· ∉ visited)).length := by
  induction l with
  | nil => simp at mem
  | cons b l ih =>
    have le := length_filter_not_mem_le l h
    simp only [decide_not] at le ih ⊢
    rcases List.mem_cons.1 mem with rfl | tail
    · simp [isNew, seen]
      omega
    · have lt := ih tail
      by_cases hb : b ∈ visited
      · simpa [hb, h b hb] using lt
      · by_cases hf : b ∈ found <;> simp [hb, hf] <;> omega

/-- Visiting one more asset leaves no more to be visited. -/
theorem unexpanded_le : scope.unexpanded (id :: visited) ≤ scope.unexpanded visited :=
  length_filter_not_mem_le _ fun _ h => List.mem_cons_of_mem _ h

/-- Visiting one more asset with dependencies leaves fewer to be visited. -/
theorem unexpanded_lt (edges : scope.edges id ≠ []) (isNew : id ∉ visited) :
    scope.unexpanded (id :: visited) < scope.unexpanded visited :=
  length_filter_not_mem_lt (fun _ h => List.mem_cons_of_mem _ h) (mem_keys_of_edges edges)
    isNew (List.mem_cons_self ..)

/-- No more is left to be visited, and less of something else. -/
theorem lex_of_le_of_lt {m n k l : Nat} (le : m ≤ n) (lt : k < l) :
    Prod.Lex (· < ·) (· < ·) (m, k) (n, l) :=
  Prod.lex_def.2 (by dsimp only; omega)

/-- Going into a new asset, whether it has dependencies or not, leaves less. -/
theorem lex_of_new {n : Nat} (keeps : ∀ a ∈ visited, a ∈ found) (isNew : id ∉ visited)
    (seen : id ∈ found) :
    Prod.Lex (· < ·) (· < ·) (scope.unexpanded found, (scope.edges id).length)
      (scope.unexpanded visited, n + 1) := by
  by_cases leaf : scope.edges id = []
  · exact lex_of_le_of_lt (length_filter_not_mem_le _ keeps) (by simp [leaf])
  · exact .left _ _ (length_filter_not_mem_lt keeps (mem_keys_of_edges leaf) isNew seen)

/-- A dependency of an asset is among the catalog's dependencies. -/
theorem mem_values_of_mem_edges {target : AssetId} (h : target ∈ scope.edges id) :
    target ∈ scope.catalog.dependencies.values.flatten := by
  unfold edges Catalog.edges Catalog.dependencies? Table.get? at h
  split at h
  · simp at h
  · cases found : scope.catalog.dependencies.entries.lookup id with
    | none => simp [found] at h
    | some ids =>
      rw [found, Option.getD_some] at h
      obtain ⟨before, after, split, _⟩ := List.lookup_eq_some_iff.1 found
      refine List.mem_flatten.2 ⟨ids, ?_, h⟩
      simp [Table.values, split]

/-- Finding assets among the dependencies of one leaves fewer to be found. -/
theorem undiscovered_lt (nonempty : fresh ≠ []) (isNew : ∀ a ∈ fresh, a ∉ found)
    (edges : ∀ a ∈ fresh, a ∈ scope.edges id) :
    scope.undiscovered (found ++ fresh) < scope.undiscovered found := by
  obtain ⟨a, rest, rfl⟩ := List.exists_cons_of_ne_nil nonempty
  exact length_filter_not_mem_lt (fun _ h => List.mem_append_left _ h)
    (mem_values_of_mem_edges (edges a (List.mem_cons_self ..)))
    (isNew a (List.mem_cons_self ..)) (List.mem_append_right _ (List.mem_cons_self ..))

end Scope

end PackPlan
