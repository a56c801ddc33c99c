import Mathlib.Logic.Relation
import PackPlan.Walk.Scope

/-!
# Reachable assets

An asset depends on what the catalog's table has for it, unless its dependencies cannot be
looked up. A walk steps from an asset along a dependency into an asset that is valid and not
excluded. What it can reach is what such steps lead to. The asset that a walk sets out
from need not be in its scope; every asset that it enters is.

## Main definitions

* `Catalog.DependsOn`, `Catalog.listed` — the dependencies as they stand in the table
* `Scope.Step` — one step of a walk

## Main results

* `Catalog.edges_eq_listed`, `Catalog.mem_edges_iff` — looking an asset up finds what stands
  in the table
* `Scope.mem_of_reflTransGen_step` — what contains an asset and goes along with every step
  contains all that the asset leads to
* `Scope.admits_of_transGen_step` — what is stepped into is in the scope
-/

namespace PackPlan

/-! ### Dependencies in the table -/

namespace Catalog

variable {c : Catalog} {a b : AssetId}

/-- An asset depends on another if its dependencies can be looked up and the table has the other
among them. -/
structure DependsOn (c : Catalog) (a b : AssetId) : Prop where
  /-- The dependencies of the asset can be looked up. -/
  readable : a ∉ c.unreadable
  /-- The table has the other among them. -/
  inTable : ∃ targets, (a, targets) ∈ c.dependencies.entries ∧ b ∈ targets

/-- What the table has for an asset, in its order, unless it cannot be looked up. -/
def listed (c : Catalog) (a : AssetId) : List AssetId :=
  (c.dependencies.entries.filter fun e => e.1 = a ∧ a ∉ c.unreadable).flatMap Prod.snd

theorem mem_listed_iff : b ∈ c.listed a ↔ c.DependsOn a b := by
  simp only [listed, List.mem_flatMap, List.mem_filter, decide_eq_true_eq]
  constructor
  · rintro ⟨⟨_, targets⟩, ⟨entry, rfl, readable⟩, mem⟩
    exact ⟨readable, targets, entry, mem⟩
  · rintro ⟨readable, targets, entry, mem⟩
    exact ⟨(a, targets), ⟨entry, rfl, readable⟩, mem⟩

/-- Looking an asset up finds what the table has for it. -/
theorem edges_eq_listed (c : Catalog) (a : AssetId) : c.edges a = c.listed a := by
  rw [edges, dependencies?, listed]
  split
  · next unreadable => simp [unreadable]
  · next readable =>
    simp only [readable, not_false_eq_true, and_true]
    rw [Table.filter_entries_eq]
    cases c.dependencies.get? a with
    | none => rfl
    | some targets => exact (List.append_nil targets).symm

theorem mem_edges_iff : b ∈ c.edges a ↔ c.DependsOn a b := by
  rw [edges_eq_listed, mem_listed_iff]

end Catalog

namespace Scope

variable {scope : Scope} {a b : AssetId}

theorem edges_eq_listed (scope : Scope) (a : AssetId) : scope.edges a = scope.catalog.listed a :=
  scope.catalog.edges_eq_listed a

/-! ### Steps -/

/-- A walk steps along a dependency into an asset that it enters. -/
def Step (scope : Scope) (a b : AssetId) : Prop :=
  scope.catalog.DependsOn a b ∧ scope.admits b = true

/-- A step is one along what a walk looks up. -/
theorem step_iff : scope.Step a b ↔ b ∈ scope.edges a ∧ scope.admits b = true :=
  and_congr_left' Catalog.mem_edges_iff.symm

/-- What contains an asset and goes along with every step contains all that the asset
leads to. -/
theorem mem_of_reflTransGen_step {ids : List AssetId}
    (closed : ∀ a ∈ ids, ∀ b, scope.Step a b → b ∈ ids) (start : a ∈ ids)
    (reach : Relation.ReflTransGen scope.Step a b) : b ∈ ids := by
  induction reach with
  | refl => exact start
  | tail _ step ih => exact closed _ ih _ step

theorem admits_of_transGen_step (reach : Relation.TransGen scope.Step a b) :
    scope.admits b = true := by
  obtain ⟨_, _, step⟩ := Relation.TransGen.tail'_iff.1 reach
  exact step.2

/-- From an asset in the scope only assets in the scope are reached. -/
theorem admits_of_reflTransGen_step (inside : scope.admits a = true)
    (reach : Relation.ReflTransGen scope.Step a b) : scope.admits b = true := by
  rcases Relation.reflTransGen_iff_eq_or_transGen.1 reach with rfl | reach
  · exact inside
  · exact admits_of_transGen_step reach

end Scope

end PackPlan
