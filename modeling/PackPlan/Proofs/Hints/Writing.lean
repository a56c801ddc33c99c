import PackPlan.Hints.Writer
import PackPlan.Proofs.Attempt
import PackPlan.Proofs.Grouping
import PackPlan.Proofs.Json.Values

/-!
# What is written into a hint file

The document of a list of records has a member for each pack of which something is said, in
ascending order, and an entry for each record that says something of its asset. For every
other record a warning is told.

## Main definitions

* `Record.isNamed` — the record has an id or a path
* `Record.Writable`, `Hints.WritableGroup` — what can be written exactly
* `Hints.PackGroup` — the records of a pack whose number can be written
* `Hints.fileOrder` — the records of a hint file, one pack after the other
* `Hints.members` — what a hint file says of groups of records

## Main results

* `Hints.runFrom_document` — the document of records, and the warnings that are told
* `Hints.isSteady_document` — what was told before makes no difference to it
* `Hints.isPlain_document` — it is a value that a text can hold exactly
-/

namespace PackPlan

variable {r : Record} {rs records : List Record} {pack : Int} {told : List Notice}
  {groups : List (Int × List Record)}

/-- The record has an id or a path. -/
def Record.isNamed (r : Record) : Bool := r.hasIdentity || r.path ≠ ""

/-- The numbers of the record can be written and read, its path is normal, and without an
identity it has the id of no asset. -/
structure Record.Writable (r : Record) : Prop where
  pack_nonneg : 0 ≤ r.pack
  pack_short : Numeral.isTooLong r.pack = false
  subId_nonneg : 0 ≤ r.id.subId
  subId_short : Numeral.isTooLong r.id.subId = false
  anonymous : r.hasIdentity = false → r.id = .none
  normal : AssetPath.normalize r.path = r.path

namespace Hints

open Json (Value)
open Attempt

/-- The records of a pack can be written exactly, and the pack as well. -/
structure WritableGroup (e : Int × List Record) : Prop where
  natural : 0 ≤ e.1
  short : Numeral.isTooLong e.1 = false
  pack : ∀ r ∈ e.2, r.pack = e.1
  records : ∀ r ∈ e.2, r.Writable

/-- The records of a pack, the number of which can be written. -/
structure PackGroup (e : Int × List Record) : Prop where
  natural : 0 ≤ e.1
  short : Numeral.isTooLong e.1 = false
  pack : ∀ r ∈ e.2, r.pack = e.1

/-- The warning that is told for a record without an id and a path. -/
def namelessWarning (pack : Int) : Notice :=
  let key := String.ofList (Numeral.decimalText pack)
  .warning s!"skipping a pack {key} record with neither an asset id nor a relative path"

/-- The entry of a record, as a value. -/
def entry (r : Record) : Value := .obj (writeEntry r)

/-- What a hint file says of groups of records: nothing of a group without named records. -/
def members (groups : List (Int × List Record)) : List (String × Value) :=
  (groups.filter fun e => e.2.any Record.isNamed).map fun e =>
    (String.ofList (Numeral.decimalText e.1), .arr ((e.2.filter Record.isNamed).map entry))

/-! ### Runs of the writer -/

theorem writeEntry_eq_nil : writeEntry r = [] ↔ r.isNamed = false := by
  rw [writeEntry, Record.isNamed]
  by_cases identified : r.hasIdentity = true <;> by_cases unnamed : r.path = "" <;>
    simp [identified, unnamed]

theorem filter_isNamed_eq_nil (nobody : rs.any Record.isNamed = false) :
    rs.filter Record.isNamed = [] :=
  List.filter_eq_nil_iff.2 fun r mem named => List.any_eq_false.1 nobody r mem named

theorem runFrom_packText (short : Numeral.isTooLong pack = false) :
    (Attempt.ofExcept (packText pack)).runFrom told =
      (.ok (String.ofList (Numeral.decimalText pack)), told) := by
  unfold packText
  rw [Numeral.decimal?_eq_some short]
  rfl

/-- A group is written with an entry for each named record, and a warning for every other. -/
theorem runFrom_writeGroup (told : List Notice) (short : Numeral.isTooLong pack = false)
    (same : ∀ r ∈ rs, r.pack = pack) :
    (writeGroup pack rs).runFrom told = (.ok ((rs.filter Record.isNamed).map entry),
      told ++ (rs.filter (!·.isNamed)).map fun r => namelessWarning r.pack) := by
  induction rs generalizing told with
  | nil =>
    simp only [List.filter_nil, List.map_nil, List.append_nil]
    rfl
  | cons r rs ih =>
    -- warnings are told in the order of the records, those of the first before the rest
    have later := fun told => @ih told fun s mem => same s (List.mem_cons_of_mem r mem)
    rw [writeGroup]
    cases named : r.isNamed with
    | false =>
      rw [if_pos (writeEntry_eq_nil.2 named), runFrom_bind_ok (runFrom_packText short),
        runFrom_bind_ok (runFrom_tell _), later, List.filter_cons_of_neg (by rw [named]; simp),
        List.filter_cons_of_pos (by rw [named]; rfl), List.map_cons, same r (by simp),
        List.append_assoc, List.singleton_append]
      rfl
    | true =>
      rw [if_neg (by rw [writeEntry_eq_nil, named]; simp), runFrom_bind_ok (later told),
        List.filter_cons_of_pos named, List.filter_cons_of_neg (by rw [named]; simp)]
      rfl

/-- A group in which nothing is said is left out. -/
theorem members_cons_of_nobody {e : Int × List Record} (nobody : e.2.any Record.isNamed = false) :
    members (e :: groups) = members groups := by
  rw [members, List.filter_cons_of_neg (by rw [nobody]; simp), members]

theorem members_cons_of_somebody {e : Int × List Record}
    (somebody : e.2.any Record.isNamed = true) :
    members (e :: groups) = (String.ofList (Numeral.decimalText e.1),
      .arr ((e.2.filter Record.isNamed).map entry)) :: members groups := by
  rw [members, List.filter_cons_of_pos (by exact somebody), List.map_cons, members]

theorem isEmpty_entries_of_somebody (somebody : rs.any Record.isNamed = true) :
    ((rs.filter Record.isNamed).map entry).isEmpty = false := by
  obtain ⟨r, mem, named⟩ := List.any_eq_true.1 somebody
  have here : entry r ∈ (rs.filter Record.isNamed).map entry :=
    List.mem_map_of_mem (List.mem_filter.2 ⟨mem, named⟩)
  rw [List.isEmpty_eq_false_iff]
  exact List.ne_nil_of_mem here

/-- Groups are written one after the other, each with its entries and its warnings. -/
theorem runFrom_writeGroups (packs : ∀ e ∈ groups, PackGroup e) :
    (writeGroups groups).runFrom told = (.ok (members groups),
      told ++ ((groups.flatMap Prod.snd).filter (!·.isNamed)).map fun r =>
        namelessWarning r.pack) := by
  induction groups generalizing told with
  | nil =>
    simp only [List.flatMap_nil, List.filter_nil, List.map_nil, List.append_nil]
    rfl
  | cons e groups ih =>
    obtain ⟨pack, group⟩ := e
    have later := fun told => @ih told fun e mem => packs e (List.mem_cons_of_mem _ mem)
    have here := packs (pack, group) (by simp)
    have written := runFrom_writeGroup told here.short here.pack
    rw [writeGroups, runFrom_bind_ok written, List.flatMap_cons, List.filter_append,
      List.map_append, ← List.append_assoc]
    cases said : group.any Record.isNamed with
    | false =>
      rw [filter_isNamed_eq_nil said, List.map_nil, List.isEmpty_nil, if_pos rfl, later,
        members_cons_of_nobody said]
    | true =>
      rw [isEmpty_entries_of_somebody said, if_neg (by simp),
        runFrom_bind_ok (runFrom_packText here.short), runFrom_bind_ok (later _),
        members_cons_of_somebody said]
      rfl

/-- The records of a hint file, one pack after the other. -/
def fileOrder (records : List Record) : List Record :=
  (Groups.ofRecords records).entries.flatMap Prod.snd

/-- The groups of a list hold the records of it that have a pack. -/
theorem mem_of_mem_groups {e : Int × List Record}
    (mem : e ∈ (Groups.ofRecords records).entries) (member : r ∈ e.2) :
    r ∈ records ∧ r.pack ≠ unassigned ∧ r.pack = e.1 := by
  obtain ⟨pack, group⟩ := e
  rw [Groups.eq_sort_of_mem_ofRecords mem, (Record.sort_perm _).mem_iff, List.mem_filter] at member
  obtain ⟨kept, same⟩ := member
  rw [Groups.kept, List.mem_filter, Bool.false_or, decide_eq_true_eq] at kept
  exact ⟨kept.1, kept.2, of_decide_eq_true same⟩

theorem packGroups_ofRecords (packs : ∀ r ∈ records, r.pack ≠ unassigned →
      0 ≤ r.pack ∧ Numeral.isTooLong r.pack = false) :
    ∀ e ∈ (Groups.ofRecords records).entries, PackGroup e := by
  rintro ⟨pack, group⟩ mem
  have key : pack ∈ (Groups.ofRecords records).keys := List.mem_map_of_mem mem
  obtain ⟨s, kept, rfl⟩ := Groups.mem_keys_ofRecords.1 key
  rw [Groups.kept, List.mem_filter, Bool.false_or, decide_eq_true_eq] at kept
  obtain ⟨natural, short⟩ := packs s kept.1 kept.2
  exact ⟨natural, short, fun r member => (mem_of_mem_groups mem member).2.2⟩

theorem writable_groups (writable : ∀ r ∈ records, r.Writable) :
    ∀ e ∈ (Groups.ofRecords records).entries, WritableGroup e := by
  intro e mem
  have packs := packGroups_ofRecords
    fun r member _ => ⟨(writable r member).pack_nonneg, (writable r member).pack_short⟩
  exact ⟨(packs e mem).natural, (packs e mem).short, (packs e mem).pack,
    fun r member => writable r (mem_of_mem_groups mem member).1⟩

/-- The document of records whose packs can be written, and the warnings that are told. -/
theorem runFrom_document_of_packs
    (packs : ∀ r ∈ records, 0 ≤ r.pack ∧ Numeral.isTooLong r.pack = false) :
    (document records).runFrom told =
      (.ok (.obj (members (Groups.ofRecords records).entries)),
        told ++ ((fileOrder records).filter (!·.isNamed)).map fun r => namelessWarning r.pack) := by
  have groups := packGroups_ofRecords fun r mem _ => packs r mem
  rw [document, runFrom_bind_ok (runFrom_writeGroups groups)]
  rfl

theorem runFrom_document (writable : ∀ r ∈ records, r.Writable) :
    (document records).runFrom told =
      (.ok (.obj (members (Groups.ofRecords records).entries)),
        told ++ ((fileOrder records).filter (!·.isNamed)).map fun r => namelessWarning r.pack) :=
  runFrom_document_of_packs
    fun r mem => ⟨(writable r mem).pack_nonneg, (writable r mem).pack_short⟩

theorem isSteady_packText (pack : Int) : (Attempt.ofExcept (packText pack)).IsSteady :=
  isSteady_ofExcept _

theorem isSteady_writeGroup (pack : Int) (rs : List Record) : (writeGroup pack rs).IsSteady := by
  induction rs with
  | nil => exact isSteady_pure _
  | cons r rs ih =>
    rw [writeGroup]
    split
    · exact (isSteady_packText pack).bind fun _ => (isSteady_tell _).bind fun _ => ih
    · exact ih.bind fun _ => isSteady_pure _

theorem isSteady_writeGroups (groups : List (Int × List Record)) :
    (writeGroups groups).IsSteady := by
  induction groups with
  | nil => exact isSteady_pure _
  | cons e groups ih =>
    rw [writeGroups]
    refine (isSteady_writeGroup e.1 e.2).bind fun entries => ?_
    split
    · exact ih
    · exact (isSteady_packText e.1).bind fun _ => ih.bind fun _ => isSteady_pure _

theorem isSteady_document (records : List Record) : (document records).IsSteady :=
  (isSteady_writeGroups _).bind fun _ => isSteady_pure _

/-! ### Plain documents -/

theorem isPlain_entry
    (short : r.hasIdentity = true → Numeral.isTooLong r.id.subId = false) : (entry r).IsPlain := by
  refine .obj ?_ fun m mem => ?_
  · rw [writeEntry]
    by_cases identified : r.hasIdentity = true <;> by_cases unnamed : r.path = "" <;>
      simp [identified, unnamed, guidKey, subIdKey, pathKey]
  · rw [writeEntry, List.mem_append] at mem
    rcases mem with identity | path
    · split at identity
      · next identified =>
        simp only [List.mem_cons, List.not_mem_nil, or_false] at identity
        rcases identity with rfl | rfl
        · exact .str _
        · exact .int (short identified)
      · exact absurd identity (by simp)
    · split at path
      · exact absurd path (by simp)
      · rw [List.mem_singleton.1 path]
        exact .str _

/-- What a hint file says of groups of distinct packs is a value that a text can hold exactly, if
the numbers of their ids can be written. -/
theorem isPlain_members (distinct : (groups.map Prod.fst).Nodup)
    (ids : ∀ e ∈ groups, ∀ r ∈ e.2, r.hasIdentity = true →
      Numeral.isTooLong r.id.subId = false) : (Value.obj (members groups)).IsPlain := by
  rw [List.Nodup, List.pairwise_map] at distinct
  refine .obj ?_ fun m mem => ?_
  · rw [members, List.map_map, List.Nodup, List.pairwise_map]
    -- distinct packs have distinct texts
    exact (distinct.filter _).imp fun apart same => apart (Numeral.eq_of_decimalText same)
  · obtain ⟨e, there, rfl⟩ := List.mem_map.1 mem
    refine .arr fun v member => ?_
    obtain ⟨r, here, rfl⟩ := List.mem_map.1 member
    exact isPlain_entry (ids e (List.mem_filter.1 there).1 r (List.mem_filter.1 here).1)

/-- The document of records is a value that a text can hold exactly, if the numbers of their ids
can be written. -/
theorem isPlain_document_of_short
    (short : ∀ r ∈ records, r.pack ≠ unassigned → r.hasIdentity = true →
      Numeral.isTooLong r.id.subId = false) :
    (Value.obj (members (Groups.ofRecords records).entries)).IsPlain := by
  refine isPlain_members (Groups.ofRecords records).nodup fun e mem r member => ?_
  obtain ⟨known, assigned, -⟩ := mem_of_mem_groups mem member
  exact short r known assigned

/-- The document of records is a value that a text can hold exactly. -/
theorem isPlain_document (writable : ∀ r ∈ records, r.Writable) :
    (Value.obj (members (Groups.ofRecords records).entries)).IsPlain :=
  isPlain_document_of_short fun r mem _ _ => (writable r mem).subId_short

end Hints

end PackPlan
