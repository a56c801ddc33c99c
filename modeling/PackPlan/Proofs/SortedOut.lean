import Mathlib.Data.List.Nodup
import PackPlan.Proofs.Grouping
import PackPlan.Proofs.Identity

/-!
# Records sorted out

Sorting out records by pack loses none and adds none, leaves no group empty and puts everything in
order. Where no two records compare alike, this decides the result: it does not depend on the order
in which the records come.

## Main definitions

* `Record.fileKey` — what decides the place of a record: its pack, its path and the text of its id
* `Groups.IsSortedOut` — groups that hold the records of a list, sorted out

## Main results

* `Record.sort_eq_of_perm` — records that do not compare alike have one order
* `Groups.entries_ofRecords_of_perm` — they are sorted out in one way
* `Groups.isSortedOut_and_eq_of_perm` — what sorting out yields, and that the order of the records
  makes no difference to it
-/

namespace PackPlan

variable {records rs rs' : List Record} {r s : Record} {withUnassigned : Bool}

theorem Table.eq_of_entries_eq {κ α : Type} {t t' : Table κ α} (same : t.entries = t'.entries) :
    t = t' := by
  obtain ⟨entries, distinct⟩ := t
  obtain ⟨entries', distinct'⟩ := t'
  obtain rfl : entries = entries' := same
  rfl

/-! ### Records in one order -/

namespace Record

/-- What decides the place of a record among the groups. -/
def fileKey (r : Record) : Int × String × String := (r.pack, r.path, r.id.text)

/-- Records that compare alike have the same path and the same text of the id. -/
theorem eq_of_le_of_le (first : r.le s = true) (second : s.le r = true) :
    r.path = s.path ∧ r.id.text = s.id.text := by
  rw [le_iff] at first second
  rcases first with below | ⟨place, within⟩
  · rcases second with above | ⟨place', -⟩
    · exact absurd above below.asymm
    · exact absurd place' below.ne'
  · rcases second with above | ⟨-, within'⟩
    · exact absurd place above.ne'
    · exact ⟨place, le_antisymm within within'⟩

theorem sort_eq_of_perm
    (apart : ∀ r ∈ rs, ∀ s ∈ rs, r.path = s.path → r.id.text = s.id.text → r = s)
    (perm : rs.Perm rs') : sort rs = sort rs' := by
  apply List.Perm.eq_of_pairwise ?alike (pairwise_sort rs) (pairwise_sort rs')
  · exact (sort_perm rs).trans (perm.trans (sort_perm rs').symm)
  case alike =>
    intro r s memR memS first second
    have there := (sort_perm rs).mem_iff.1 memR
    have here := perm.mem_iff.2 ((sort_perm rs').mem_iff.1 memS)
    obtain ⟨path, id⟩ := eq_of_le_of_le first second
    exact apart r there s here path id

end Record

namespace Groups

theorem entries_ofRecords (records : List Record) (withUnassigned : Bool) :
    (ofRecords records withUnassigned).entries =
      (ofRecords records withUnassigned).keys.map fun pack =>
        (pack, Record.sort ((kept withUnassigned records).filter (·.pack = pack))) := by
  rw [Table.keys, List.map_map]
  refine (List.map_id _).symm.trans (List.map_congr_left fun e mem => ?_)
  exact Prod.ext rfl (eq_sort_of_mem_ofRecords mem)

/-- The packs of a list of records are decided by which packs occur. -/
theorem keys_ofRecords_congr
    (packs : ∀ pack, (∃ r ∈ kept withUnassigned rs, r.pack = pack) ↔
      ∃ r ∈ kept withUnassigned rs', r.pack = pack) :
    (ofRecords rs withUnassigned).keys = (ofRecords rs' withUnassigned).keys := by
  -- ascending lists with the same members are equal
  apply List.Perm.eq_of_pairwise (fun a b _ _ below above => absurd above below.asymm)
    (pairwise_keys_ofRecords rs withUnassigned) (pairwise_keys_ofRecords rs' withUnassigned)
  refine (List.perm_ext_iff_of_nodup (ofRecords rs withUnassigned).nodup
    (ofRecords rs' withUnassigned).nodup).2 fun pack => ?_
  exact mem_keys_ofRecords.trans ((packs pack).trans mem_keys_ofRecords.symm)

theorem entries_ofRecords_of_perm
    (apart : ∀ r ∈ rs, ∀ s ∈ rs, r.fileKey = s.fileKey → r = s) (perm : rs.Perm rs') :
    (ofRecords rs withUnassigned).entries = (ofRecords rs' withUnassigned).entries := by
  have same : (kept withUnassigned rs).Perm (kept withUnassigned rs') := perm.filter _
  have keys : (ofRecords rs withUnassigned).keys = (ofRecords rs' withUnassigned).keys :=
    keys_ofRecords_congr fun pack => exists_congr fun r => and_congr_left fun _ => same.mem_iff
  rw [entries_ofRecords, entries_ofRecords, keys]
  refine List.map_congr_left fun pack _ => Prod.ext rfl (Record.sort_eq_of_perm ?_ (same.filter _))
  -- the records of a group are among those of the list and have one pack
  have part : ∀ r ∈ (kept withUnassigned rs).filter (·.pack = pack), r ∈ rs ∧ r.pack = pack := by
    intro r mem
    obtain ⟨keep, own⟩ := List.mem_filter.1 mem
    exact ⟨(List.mem_filter.1 keep).1, of_decide_eq_true own⟩
  intro r memR s memS path id
  obtain ⟨there, pack⟩ := part r memR
  obtain ⟨there', pack'⟩ := part s memS
  exact apart r there s there' (Prod.ext (pack.trans pack'.symm) (Prod.ext path id))

/-! ### What sorting out yields -/

/-- Groups that hold the records of a list, sorted out: the packs ascend, no group is empty, each
record occurs in the group of its pack as often as in the list and in no other group, and each group
is in order. Records without a pack are left out unless they are asked for. -/
structure IsSortedOut (withUnassigned : Bool) (records : List Record) (groups : Groups) :
    Prop where
  ascends : groups.keys.Pairwise (· < ·)
  nonempty : ∀ e ∈ groups.entries, e.2 ≠ []
  count : ∀ pack r, ((groups.get? pack).getD []).count r =
    if r.pack = pack ∧ (withUnassigned = true ∨ r.pack ≠ unassigned) then records.count r else 0
  ordered : ∀ e ∈ groups.entries, e.2.Pairwise fun r s =>
    r.path < s.path ∨ r.path = s.path ∧ r.id.text ≤ s.id.text

theorem count_kept (withUnassigned : Bool) (records : List Record) (r : Record) :
    (kept withUnassigned records).count r =
      if withUnassigned = true ∨ r.pack ≠ unassigned then records.count r else 0 := by
  rw [kept]
  split
  · next keep =>
    exact List.count_filter (by simpa using keep)
  · next drop =>
    rw [List.count_eq_zero]
    exact fun mem => drop (by simpa using (List.mem_filter.1 mem).2)

theorem isSortedOut_ofRecords (records : List Record) (withUnassigned : Bool) :
    IsSortedOut withUnassigned records (ofRecords records withUnassigned) := by
  refine ⟨pairwise_keys_ofRecords records withUnassigned, ?nonempty, ?count, ?ordered⟩
  case nonempty =>
    intro e mem
    -- a pack is there for a record that has it
    obtain ⟨r, keep, own⟩ := mem_keys_ofRecords.1 (List.mem_map_of_mem (f := Prod.fst) mem)
    rw [eq_sort_of_mem_ofRecords mem]
    have member : r ∈ (kept withUnassigned records).filter (·.pack = e.1) :=
      List.mem_filter.2 ⟨keep, decide_eq_true own⟩
    exact List.ne_nil_of_mem ((Record.sort_perm _).mem_iff.2 member)
  case count =>
    intro pack r
    rw [getD_ofRecords, (Record.sort_perm _).count_eq]
    by_cases own : r.pack = pack
    · rw [List.count_filter (by simpa using own), count_kept]
      simp only [own, true_and]
    · rw [if_neg fun h => own h.1, List.count_eq_zero]
      exact fun mem => own (of_decide_eq_true (List.mem_filter.1 mem).2)
  case ordered =>
    intro e mem
    rw [eq_sort_of_mem_ofRecords mem]
    exact (Record.pairwise_sort _).imp Record.le_iff.1

/-- Records are sorted out whatever they are, and if no two of them have the same pack, path and
text of the id, then the order in which they come makes no difference. -/
theorem isSortedOut_and_eq_of_perm (records : List Record) (withUnassigned : Bool) :
    IsSortedOut withUnassigned records (ofRecords records withUnassigned) ∧
      ((records.map Record.fileKey).Nodup → ∀ records', records.Perm records' →
        ofRecords records withUnassigned = ofRecords records' withUnassigned) := by
  refine ⟨isSortedOut_ofRecords records withUnassigned, fun distinct records' perm => ?_⟩
  apply Table.eq_of_entries_eq
  apply entries_ofRecords_of_perm ?_ perm
  intro r memR s memS same
  exact List.inj_on_of_nodup_map distinct memR memS same

/-- Records of two packs and of none, two of them with one path. -/
def tiedRecords : List Record :=
  [{ id := ⟨⟨2, Guid.two_lt⟩, 0⟩, path := "a", pack := 10 }, { path := "b", pack := 9 },
    { id := ⟨⟨1, Guid.one_lt⟩, 0⟩, path := "a", pack := 10 }, { path := "a" }]

theorem isSortedOut_and_eq_of_perm_tiedRecords :
    (tiedRecords.map Record.fileKey).Nodup ∧
      IsSortedOut true tiedRecords (ofRecords tiedRecords true) ∧
      ofRecords tiedRecords true = ofRecords tiedRecords.reverse true := by
  have distinct : (tiedRecords.map Record.fileKey).Nodup := by decide +kernel
  obtain ⟨sortedOut, same⟩ := isSortedOut_and_eq_of_perm tiedRecords true
  exact ⟨distinct, sortedOut, same distinct _ (List.reverse_perm _).symm⟩

end Groups

end PackPlan
