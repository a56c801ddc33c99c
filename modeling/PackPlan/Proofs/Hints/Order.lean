import PackPlan.Proofs.Hints.RoundTrip
import PackPlan.Proofs.SortedOut

/-!
# The order of records in a hint file

A hint file says nothing of a record but the id, the path and the pack, and it puts the records
in order itself. Records of distinct assets may therefore come in any order: the hint file is
the same.

## Main results

* `Groups.entries_ofRecords_bare` — nothing else of a record decides where it is sorted
* `Hints.document_bare`, `Hints.document_kept` — what a hint file says of records
* `Hints.document_eq_of_perm` — records of distinct assets have one hint file
-/

namespace PackPlan

variable {rs rs' : List Record} {r s : Record} {withUnassigned : Bool}

namespace Record

/-- Records of distinct assets have places of their own. -/
theorem eq_of_fileKey_eq (distinct : (rs.map Record.id).Nodup) (memR : r ∈ rs) (memS : s ∈ rs)
    (same : r.fileKey = s.fileKey) : r = s :=
  List.inj_on_of_nodup_map distinct memR memS
    (AssetId.eq_of_text (congrArg (fun key => key.2.2) same))

theorem nodup_map_bare (distinct : (rs.map id).Nodup) : (rs.map bare).Nodup :=
  .of_map id (by rwa [List.map_map])

theorem sort_map_bare (rs : List Record) : sort (rs.map bare) = (sort rs).map bare :=
  (List.map_mergeSort (f := bare) fun _ _ _ _ => rfl).symm

end Record

namespace Groups

theorem kept_map_bare (records : List Record) :
    kept withUnassigned (records.map Record.bare) =
      (kept withUnassigned records).map Record.bare :=
  List.filter_map

theorem entries_ofRecords_bare (records : List Record) :
    (ofRecords (records.map Record.bare) withUnassigned).entries =
      (ofRecords records withUnassigned).entries.map fun e => (e.1, e.2.map Record.bare) := by
  have keys : (ofRecords (records.map Record.bare) withUnassigned).keys =
      (ofRecords records withUnassigned).keys := by
    refine keys_ofRecords_congr fun pack => ?_
    simp only [kept_map_bare, List.mem_map, exists_exists_and_eq_and]
    exact Iff.rfl
  rw [entries_ofRecords, entries_ofRecords, keys, kept_map_bare, List.map_map]
  refine List.map_congr_left fun pack _ => Prod.ext rfl ?_
  rw [List.filter_map, Record.sort_map_bare]
  rfl

end Groups

namespace Hints

theorem writeGroup_bare (pack : Int) (rs : List Record) :
    writeGroup pack (rs.map Record.bare) = writeGroup pack rs := by
  induction rs with
  | nil => rfl
  | cons r rs ih =>
    have entry : writeEntry r.bare = writeEntry r := rfl
    rw [List.map_cons, writeGroup, writeGroup, entry, ih]

theorem writeGroups_bare (groups : List (Int × List Record)) :
    writeGroups (groups.map fun e => (e.1, e.2.map Record.bare)) = writeGroups groups := by
  induction groups with
  | nil => rfl
  | cons e groups ih => rw [List.map_cons, writeGroups, writeGroups, writeGroup_bare, ih]

/-- Of a record nothing is written but the id, the path and the pack. -/
theorem document_bare (records : List Record) :
    document (records.map Record.bare) = document records := by
  rw [document, document, Groups.entries_ofRecords_bare, writeGroups_bare]

/-- Records without a pack are not in a hint file. -/
theorem document_kept (records : List Record) :
    document (Groups.kept false records) = document records := by
  have again : Groups.kept false (Groups.kept false records) = Groups.kept false records :=
    List.filter_eq_self.2 fun r mem => (List.mem_filter.1 mem).2
  have groups : Groups.ofRecords (Groups.kept false records) = Groups.ofRecords records :=
    congrArg (fun kept => (Groups.collect kept).ascending.map fun _ => Record.sort) again
  rw [document, document, groups]

/-- The hint file of records of distinct assets, in whatever order they come. -/
theorem document_eq_of_perm (distinct : (rs.map Record.id).Nodup)
    (same : (rs.map Record.bare).Perm (rs'.map Record.bare)) : document rs = document rs' := by
  have ids : ((rs.map Record.bare).map Record.id).Nodup := by
    rwa [List.map_map]
  rw [← document_bare rs, ← document_bare rs', document, document,
    Groups.entries_ofRecords_of_perm (fun _ memR _ memS => Record.eq_of_fileKey_eq ids memR memS)
      same]

end Hints

end PackPlan
