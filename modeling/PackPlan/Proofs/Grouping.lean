import Mathlib.Data.List.Induction
import Mathlib.Data.List.Perm.Basic
import Mathlib.Data.String.Basic
import PackPlan.Grouping

/-!
# What is in a group

Records sorted out by pack are the same records in another order: the packs ascend, and
within a pack the records are in the order of records.

## Main definitions

* `Groups.kept` — the records that are sorted out
* `Record.inFileOrder` — the order by pack, then by path, then by the text of the id

## Main results

* `Groups.eq_sort_of_mem_ofRecords`, `Groups.exists_mem_ofRecords_iff` — each group holds the
  records of its pack, sorted
* `Groups.pairwise_keys_ofRecords` — the packs ascend
* `Groups.perm_ofRecords` — no record is lost or added
* `Groups.pairwise_ofRecords` — the groups one after the other are in order
-/

namespace PackPlan

variable {records : List Record} {r s : Record} {pack : Int} {group : List Record}
  {withUnassigned : Bool}

/-! ### The order of records -/

namespace Record

theorem le_iff : r.le s = true ↔ r.path < s.path ∨ r.path = s.path ∧ r.id.text ≤ s.id.text := by
  rw [le, before, Bool.not_eq_true', Bool.or_eq_false_iff, Bool.and_eq_false_iff,
    decide_eq_false_iff_not, decide_eq_false_iff_not, decide_eq_false_iff_not]
  constructor
  · rintro ⟨notAbove, notAfter⟩
    rcases lt_or_eq_of_le (not_lt.1 notAbove) with below | same
    · exact Or.inl below
    · exact Or.inr ⟨same, not_lt.1 (notAfter.resolve_left (not_not.2 same.symm))⟩
  · rintro (below | ⟨same, within⟩)
    · exact ⟨not_lt.2 below.le, Or.inl below.ne'⟩
    · exact ⟨not_lt.2 same.le, Or.inr (not_lt.2 within)⟩

/-- Records are in order by pack, then by path, then by the text of the id. -/
def inFileOrder (r s : Record) : Prop :=
  r.pack < s.pack ∨ r.pack = s.pack ∧ (r.path < s.path ∨ r.path = s.path ∧ r.id.text ≤ s.id.text)

theorem le_of_le_of_le {t : Record} (first : r.le s = true) (second : s.le t = true) :
    r.le t = true := by
  rw [le_iff] at *
  rcases first with below | ⟨same, within⟩ <;> rcases second with below' | ⟨same', within'⟩
  · exact Or.inl (below.trans below')
  · exact Or.inl (same' ▸ below)
  · exact Or.inl (same ▸ below')
  · exact Or.inr ⟨same.trans same', within.trans within'⟩

theorem le_or_le (r s : Record) : (r.le s || s.le r) = true := by
  rw [Bool.or_eq_true, le_iff, le_iff]
  rcases lt_trichotomy r.path s.path with below | same | above
  · exact Or.inl (Or.inl below)
  · exact (le_total r.id.text s.id.text).imp (fun within => Or.inr ⟨same, within⟩)
      fun within => Or.inr ⟨same.symm, within⟩
  · exact Or.inr (Or.inl above)

theorem pairwise_sort (records : List Record) :
    (sort records).Pairwise fun r s => r.le s = true := by
  apply List.pairwise_mergeSort
  · intro r s t first second
    exact le_of_le_of_le first second
  · exact le_or_le

theorem sort_perm (records : List Record) : (sort records).Perm records :=
  List.mergeSort_perm records le

end Record

/-! ### Lists sorted out -/

/-- What is sorted out by key and put together again is the same, but for the order, as far as
there is a group for its key. -/
theorem flatMap_filter_perm {α κ : Type} [DecidableEq κ] (key : α → κ) (xs : List α) {ks : List κ}
    (distinct : ks.Nodup) :
    (ks.flatMap fun k => xs.filter (key · = k)).Perm (xs.filter (key · ∈ ks)) := by
  induction ks with
  | nil => simp
  | cons k ks ih =>
    obtain ⟨fresh, distinct⟩ := List.nodup_cons.1 distinct
    -- the first key divides what has a group into its own group and the others
    have inside : (xs.filter (key · ∈ k :: ks)).filter (key · = k) = xs.filter (key · = k) := by
      rw [List.filter_filter]
      refine List.filter_congr fun x _ => ?_
      by_cases same : key x = k <;> simp [same]
    have outside : (xs.filter (key · ∈ k :: ks)).filter (fun x => !decide (key x = k)) =
        xs.filter (key · ∈ ks) := by
      rw [List.filter_filter]
      refine List.filter_congr fun x _ => ?_
      by_cases same : key x = k <;> simp [same, fresh]
    have parts := List.filter_append_perm (fun x => decide (key x = k))
      (xs.filter (key · ∈ k :: ks))
    rw [inside, outside] at parts
    rw [List.flatMap_cons]
    exact ((ih distinct).append_left _).trans parts

namespace Groups

/-! ### The packs in ascending order -/

theorem entries_ascending_perm (groups : Groups) :
    groups.ascending.entries.Perm groups.entries :=
  List.mergeSort_perm _ _

/-- The packs ascend. -/
theorem pairwise_keys_ascending (groups : Groups) :
    groups.ascending.keys.Pairwise (· < ·) := by
  have ascend : groups.ascending.keys.Pairwise (· ≤ ·) := by
    rw [ascending, Table.keys, Table.sortKeys, List.pairwise_map]
    have sorted : (groups.entries.mergeSort fun a b => decide (a.1 ≤ b.1)).Pairwise
        fun a b => decide (a.1 ≤ b.1) = true := by
      apply List.pairwise_mergeSort
      · simp only [decide_eq_true_eq]
        omega
      · simp only [Bool.or_eq_true, decide_eq_true_eq]
        omega
    exact sorted.imp of_decide_eq_true
  have distinct : groups.ascending.keys.Pairwise (· ≠ ·) := groups.ascending.nodup
  exact (ascend.and distinct).imp fun h => lt_of_le_of_ne h.1 h.2

theorem mem_keys_ascending {groups : Groups} : pack ∈ groups.ascending.keys ↔ pack ∈ groups.keys :=
  ((entries_ascending_perm groups).map Prod.fst).mem_iff

theorem get?_ascending (groups : Groups) (pack : Int) :
    groups.ascending.get? pack = groups.get? pack := by
  ext group
  rw [Table.get?_eq_some, Table.get?_eq_some, (entries_ascending_perm groups).mem_iff]

/-! ### Records sorted out -/

theorem collect_append (records : List Record) (r : Record) :
    collect (records ++ [r]) = (collect records).push r.pack r := by
  rw [collect, List.foldl_append]
  rfl

theorem get?_collect : ((collect records).get? pack).getD [] = records.filter (·.pack = pack) := by
  induction records using List.reverseRecOn with
  | nil => rfl
  | append_singleton records r ih =>
    rw [collect_append, Table.push, Table.get?_insert, List.filter_append, ← ih]
    by_cases same : pack = r.pack
    · rw [if_pos same, Option.getD_some, same]
      simp
    · rw [if_neg same]
      simp [Ne.symm same]

theorem mem_keys_collect : pack ∈ (collect records).keys ↔ ∃ r ∈ records, r.pack = pack := by
  induction records using List.reverseRecOn with
  | nil => simp [collect]
  | append_singleton records r ih =>
    have more : (∃ s ∈ records ++ [r], s.pack = pack) ↔
        (∃ s ∈ records, s.pack = pack) ∨ r.pack = pack := by
      simp only [List.mem_append, List.mem_singleton, or_and_right, exists_or, exists_eq_left]
    rw [collect_append, Table.push, Table.keys_insert, more, ← ih]
    split
    · next there => exact ⟨Or.inl, fun either => either.elim id fun same => same ▸ there⟩
    · rw [List.mem_append, List.mem_singleton, eq_comm]

/-- The records that are sorted out. -/
def kept (withUnassigned : Bool) (records : List Record) : List Record :=
  records.filter fun r => withUnassigned || r.pack ≠ unassigned

theorem mem_kept_false : r ∈ kept false records ↔ r ∈ records ∧ r.pack ≠ unassigned := by
  simp [kept]

/-- Of a pack that assets can have, all records are sorted out. -/
theorem filter_kept_false (assigned : pack ≠ unassigned) (records : List Record) :
    (kept false records).filter (·.pack = pack) = records.filter (·.pack = pack) := by
  rw [kept, List.filter_filter]
  refine List.filter_congr fun r _ => ?_
  by_cases same : r.pack = pack <;> simp [same, assigned]

theorem mem_entries_ofRecords :
    (pack, group) ∈ (ofRecords records withUnassigned).entries ↔
      ∃ g, (collect (kept withUnassigned records)).get? pack = some g ∧ group = Record.sort g := by
  simp only [Table.get?_eq_some, ofRecords, ascending, Table.map, Table.sortKeys, List.mem_map,
    List.mem_mergeSort, Prod.mk.injEq, Prod.exists, kept]
  constructor
  · rintro ⟨key, g, mem, rfl, rfl⟩
    exact ⟨g, mem, rfl⟩
  · rintro ⟨g, mem, rfl⟩
    exact ⟨pack, g, mem, rfl, rfl⟩

/-- Each group holds the records of its pack, sorted. -/
theorem eq_sort_of_mem_ofRecords
    (mem : (pack, group) ∈ (ofRecords records withUnassigned).entries) :
    group = Record.sort ((kept withUnassigned records).filter (·.pack = pack)) := by
  obtain ⟨g, found, rfl⟩ := mem_entries_ofRecords.1 mem
  rw [← get?_collect, found, Option.getD_some]

theorem getD_ofRecords (records : List Record) (withUnassigned : Bool) (pack : Int) :
    ((ofRecords records withUnassigned).get? pack).getD [] =
      Record.sort ((kept withUnassigned records).filter (·.pack = pack)) := by
  rw [ofRecords, Table.get?_map, get?_ascending, ← get?_collect, kept]
  cases (collect (records.filter fun r => withUnassigned || r.pack ≠ unassigned)).get? pack with
  | none => exact List.mergeSort_nil.symm
  | some group => rfl

/-- A group holds the records that are sorted out and have its pack. -/
theorem exists_mem_ofRecords_iff :
    (∃ group, (pack, group) ∈ (ofRecords records withUnassigned).entries ∧ r ∈ group) ↔
      r ∈ kept withUnassigned records ∧ r.pack = pack := by
  constructor
  · rintro ⟨group, mem, member⟩
    rw [eq_sort_of_mem_ofRecords mem, (Record.sort_perm _).mem_iff, List.mem_filter] at member
    exact ⟨member.1, of_decide_eq_true member.2⟩
  · rintro ⟨keep, rfl⟩
    have found : r ∈ ((collect (kept withUnassigned records)).get? r.pack).getD [] := by
      rw [get?_collect]
      exact List.mem_filter.2 ⟨keep, decide_eq_true rfl⟩
    cases there : (collect (kept withUnassigned records)).get? r.pack with
    | none =>
      rw [there] at found
      exact absurd found List.not_mem_nil
    | some group =>
      rw [there] at found
      exact ⟨_, mem_entries_ofRecords.2 ⟨group, there, rfl⟩,
        (Record.sort_perm _).mem_iff.2 found⟩

theorem mem_keys_ofRecords : pack ∈ (ofRecords records withUnassigned).keys ↔
    ∃ r ∈ kept withUnassigned records, r.pack = pack := by
  rw [← mem_keys_collect, ofRecords, Table.keys_map, ascending, Table.keys, Table.sortKeys,
    ((List.mergeSort_perm _ _).map Prod.fst).mem_iff]
  rfl

theorem pairwise_keys_ofRecords (records : List Record) (withUnassigned : Bool) :
    (ofRecords records withUnassigned).keys.Pairwise (· < ·) := by
  rw [ofRecords, Table.keys_map]
  exact pairwise_keys_ascending _

/-- No record is lost or added. -/
theorem perm_ofRecords (records : List Record) (withUnassigned : Bool) :
    ((ofRecords records withUnassigned).entries.flatMap Prod.snd).Perm
      (kept withUnassigned records) := by
  have groups : (ofRecords records withUnassigned).entries.flatMap Prod.snd =
      (ofRecords records withUnassigned).keys.flatMap fun pack =>
        Record.sort ((kept withUnassigned records).filter (·.pack = pack)) := by
    rw [Table.keys, List.flatMap_map]
    exact List.flatMap_congr fun e mem => eq_sort_of_mem_ofRecords mem
  have whole : (kept withUnassigned records).filter
      (·.pack ∈ (ofRecords records withUnassigned).keys) = kept withUnassigned records := by
    rw [List.filter_eq_self]
    intro r mem
    exact decide_eq_true (mem_keys_ofRecords.2 ⟨r, mem, rfl⟩)
  rw [groups]
  refine (List.Perm.flatMap_left _ fun pack _ => Record.sort_perm _).trans ?_
  have perm := flatMap_filter_perm Record.pack (kept withUnassigned records)
    (ofRecords records withUnassigned).nodup
  exact perm.trans (List.Perm.of_eq whole)

/-- The groups one after the other are in order. -/
theorem pairwise_ofRecords (records : List Record) (withUnassigned : Bool) :
    ((ofRecords records withUnassigned).entries.flatMap Prod.snd).Pairwise Record.inFileOrder := by
  have pack_of_mem : ∀ e ∈ (ofRecords records withUnassigned).entries, ∀ r ∈ e.2, r.pack = e.1 := by
    intro e mem r member
    rw [eq_sort_of_mem_ofRecords mem, (Record.sort_perm _).mem_iff] at member
    exact of_decide_eq_true (List.mem_filter.1 member).2
  rw [List.pairwise_flatMap]
  constructor
  · intro e mem
    -- within a group the packs are the same
    have same := pack_of_mem e mem
    rw [eq_sort_of_mem_ofRecords mem] at same ⊢
    refine (Record.pairwise_sort _).imp_of_mem fun {r s} memR memS le => ?_
    exact Or.inr ⟨(same r memR).trans (same s memS).symm, Record.le_iff.1 le⟩
  · -- from one group to a later one they ascend
    have ascend := pairwise_keys_ofRecords records withUnassigned
    rw [Table.keys, List.pairwise_map] at ascend
    refine ascend.imp_of_mem fun {e e'} mem mem' below r memR s memS => Or.inl ?_
    rw [pack_of_mem e mem r memR, pack_of_mem e' mem' s memS]
    exact below

end Groups

end PackPlan
