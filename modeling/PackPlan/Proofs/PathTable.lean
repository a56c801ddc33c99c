import Mathlib.Data.List.Nodup
import PackPlan.PathTable

/-!
# Records gathered by path

A table that gathers records keeps the first record of each path. The records stand in the order
in which their paths came up, each under its own path.

## Main definitions

* `PathTable.firsts` — the first record of each path
* `PathTable.IsKeyed` — every record stands under its own path

## Main results

* `PathTable.firsts_filter`, `PathTable.mem_firsts_iff` — which records are the first of their path
* `PathTable.entries_foldl_add`, `PathTable.get?_foldl_add` — what a table gathers
* `PathTable.values_gather`, `PathTable.get?_gather` — what it gathers from several sources
-/

namespace PackPlan

namespace Table

variable {κ α : Type} [DecidableEq κ] {t : Table κ α} {k k' : κ} {v : α}

theorem insertNew_of_contains (there : t.contains k = true) : t.insertNew k v = t := by
  rw [insertNew, dif_neg (Option.isSome_iff_ne_none.1 there)]

theorem entries_insertNew_of_not_contains (absent : t.contains k = false) :
    (t.insertNew k v).entries = t.entries ++ [(k, v)] := by
  rw [insertNew, dif_pos (Option.isNone_iff_eq_none.1 (by simpa [contains] using absent))]

theorem contains_insertNew (k' : κ) :
    (t.insertNew k v).contains k' = (decide (k' = k) || t.contains k') := by
  rw [contains, get?_insertNew]
  by_cases same : k' = k
  · simp [same]
  · rw [if_neg same, decide_eq_false same, Bool.false_or, contains]

end Table

namespace PathTable

variable {t : PathTable} {rs : List Record} {r : Record} {path : String}

/-! ### The first record of each path -/

/-- The first record of each path, in the order of the list. -/
def firsts : List Record → List Record
  | [] => []
  | r :: rs => r :: (firsts rs).filter (·.path ≠ r.path)

/-- Which records of a path are left makes no difference to those of another. -/
theorem firsts_filter (keep : String → Bool) (rs : List Record) :
    (firsts rs).filter (fun r => keep r.path) = firsts (rs.filter fun r => keep r.path) := by
  induction rs with
  | nil => rfl
  | cons r rs ih =>
    rw [firsts, List.filter_cons, List.filter_cons]
    cases kept : keep r.path with
    | true =>
      rw [if_pos rfl, if_pos rfl, firsts, ← ih, List.filter_filter, List.filter_filter]
      simp only [Bool.and_comm]
    | false =>
      rw [if_neg Bool.false_ne_true, if_neg Bool.false_ne_true, ← ih, List.filter_filter]
      -- what is kept has another path than a record that is not
      refine List.filter_congr fun s _ => ?_
      by_cases same : s.path = r.path
      · simp [same, kept]
      · simp [same]

theorem firsts_sublist (rs : List Record) : (firsts rs).Sublist rs := by
  induction rs with
  | nil => exact .slnil
  | cons r rs ih => exact (List.filter_sublist.trans ih).cons_cons r

/-- No path is left twice. -/
theorem nodup_firsts (rs : List Record) : ((firsts rs).map Record.path).Nodup := by
  induction rs with
  | nil => exact List.nodup_nil
  | cons r rs ih =>
    rw [firsts, List.map_cons, List.nodup_cons]
    refine ⟨?_, ih.sublist (List.filter_sublist.map _)⟩
    intro mem
    obtain ⟨s, there, same⟩ := List.mem_map.1 mem
    exact of_decide_eq_true (List.mem_filter.1 there).2 same

/-- Records of distinct paths are all the first of their path. -/
theorem firsts_eq_self (distinct : (rs.map Record.path).Nodup) : firsts rs = rs := by
  induction rs with
  | nil => rfl
  | cons r rs ih =>
    rw [List.map_cons, List.nodup_cons] at distinct
    rw [firsts, ih distinct.2, List.filter_eq_self.2]
    intro s mem
    exact decide_eq_true fun same => distinct.1 (same ▸ List.mem_map_of_mem mem)

theorem find?_firsts (rs : List Record) (path : String) :
    (firsts rs).find? (·.path = path) = rs.find? (·.path = path) := by
  induction rs with
  | nil => rfl
  | cons r rs ih =>
    by_cases here : r.path = path
    · rw [firsts, List.find?_cons_of_pos (by simpa using here),
        List.find?_cons_of_pos (by simpa using here)]
    · rw [firsts, List.find?_cons_of_neg (by simpa using here),
        List.find?_cons_of_neg (by simpa using here), ← ih, List.find?_filter]
      -- no record of the path has been left out for the first one
      congr 1
      funext s
      by_cases there : s.path = path
      · simp [there, Ne.symm here]
      · simp [there]

theorem mem_firsts_iff : r ∈ firsts rs ↔ rs.find? (·.path = r.path) = some r := by
  rw [← find?_firsts]
  constructor
  · intro mem
    cases found : (firsts rs).find? (·.path = r.path) with
    | none => exact absurd (List.find?_eq_none.1 found r mem) (by simp)
    | some s =>
      have same : s.path = r.path := by simpa using List.find?_some found
      rw [List.inj_on_of_nodup_map (nodup_firsts rs) (List.mem_of_find?_eq_some found) mem same]
  · exact List.mem_of_find?_eq_some

/-! ### Adding records -/

/-- Where a record has been added, those that come after it are of other paths. -/
theorem firsts_filter_add (t : PathTable) (r : Record) (rs : List Record) :
    firsts (rs.filter fun s => !(t.add r.path r).1.contains s.path) =
      (firsts (rs.filter fun s => !t.contains s.path)).filter (·.path ≠ r.path) := by
  rw [firsts_filter fun path => decide (path ≠ r.path), List.filter_filter, add]
  congr 1
  refine List.filter_congr fun s _ => ?_
  rw [Table.contains_insertNew, Bool.not_or]
  simp

/-- What is added are the first records of the paths that were not there. -/
theorem entries_foldl_add (t : PathTable) (rs : List Record) :
    (rs.foldl (fun t r => (t.add r.path r).1) t).entries =
      t.entries ++ (firsts (rs.filter fun r => !t.contains r.path)).map fun r => (r.path, r) := by
  induction rs generalizing t with
  | nil => exact (List.append_nil _).symm
  | cons r rs ih =>
    rw [List.foldl_cons, ih]
    cases there : t.contains r.path with
    | true =>
      rw [add, Table.insertNew_of_contains there, List.filter_cons_of_neg (by simp [there])]
    | false =>
      rw [firsts_filter_add, add, Table.entries_insertNew_of_not_contains there,
        List.filter_cons_of_pos (by simp [there]), firsts, List.map_cons, List.append_assoc]
      rfl

theorem get?_foldl_add (t : PathTable) (rs : List Record) (path : String) :
    (rs.foldl (fun t r => (t.add r.path r).1) t).get? path =
      (t.get? path).or (rs.find? (·.path = path)) := by
  induction rs generalizing t with
  | nil => exact (Option.or_none).symm
  | cons r rs ih =>
    rw [List.foldl_cons, ih, add, Table.get?_insertNew, List.find?_cons]
    by_cases here : r.path = path
    · rw [here, if_pos rfl]
      cases t.get? path <;> simp
    · rw [if_neg (Ne.symm here)]
      simp [here]

theorem gather_concat (sources : List (List Record)) (source : List Record) :
    gather (sources ++ [source]) =
      source.foldl (fun t r => (t.add r.path r).1) (gather sources) := by
  rw [gather, List.flatten_concat, List.foldl_append]
  rfl

/-- The first record of each path is gathered. -/
theorem values_gather (sources : List (List Record)) :
    (gather sources).values = firsts sources.flatten := by
  have all : sources.flatten.filter (fun r => !(Table.empty : PathTable).contains r.path) =
      sources.flatten := List.filter_eq_self.2 fun _ _ => rfl
  rw [Table.values, gather, entries_foldl_add, all, List.map_append, List.map_map]
  exact List.map_id' _

theorem get?_gather (sources : List (List Record)) (path : String) :
    (gather sources).get? path = sources.flatten.find? (·.path = path) := by
  rw [gather, get?_foldl_add, Table.get?_empty, Option.none_or]

/-! ### Records under their own paths -/

/-- Every record stands under its own path. -/
def IsKeyed (t : PathTable) : Prop := ∀ path r, t.get? path = some r → r.path = path

namespace IsKeyed

theorem empty : IsKeyed .empty := by
  intro path r found
  cases found

theorem foldl_add (keyed : t.IsKeyed) (rs : List Record) :
    IsKeyed (rs.foldl (fun t r => (t.add r.path r).1) t) := by
  intro path r found
  rw [get?_foldl_add, Option.or_eq_some_iff] at found
  rcases found with before | ⟨-, first⟩
  · exact keyed path r before
  · simpa using List.find?_some first

theorem map_path_values (keyed : t.IsKeyed) : t.values.map Record.path = t.keys :=
  Table.map_values_eq_keys keyed

end IsKeyed

theorem isKeyed_gather (sources : List (List Record)) : (gather sources).IsKeyed :=
  IsKeyed.empty.foldl_add _

end PathTable

end PackPlan
