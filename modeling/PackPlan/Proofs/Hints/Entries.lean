import PackPlan.Proofs.Hints.Rereading

/-!
# The entries of a hint file

What a hint file says when it is taken as it stands, without being read as records: under the
number of each pack the entries of the records of that pack, whatever these numbers are. Even a
file that would be refused because a number in it is negative is known in this way.

## Main definitions

* `Hints.items` — the entries of a hint file, each with the number above it
* `Hints.IsItemOf`, `Hints.IsItemAt` — an entry is that of an id and a pack, or has a path
* `Hints.HoldsEntries` — a hint file holds one entry for each id that has a pack

* `Hints.IsTextOf` — a text is that of the hint file of records

## Main results

* `Hints.eq_of_readDocument` — if a hint file is read at all, it is as what it has been written of
* `Hints.IsTextOf.exists_items` — a hint file holds the entries of the records of which it is
  written
* `Hints.holdsEntries_of_perm`, `Hints.exists_isItemAt_iff` — so it holds their ids and paths
-/

namespace PackPlan.Hints

open Json (Value)
open Attempt

variable {records rs : List Record} {r : Record} {id : AssetId} {pack : Int} {v : Value}
  {text path : String} {told told' : List Notice} {groups : List (Int × List Record)}
  {ms : List (String × Value)} {item : String × Value}

/-! ### Entries -/

/-- The entries of a hint file, each with the number above it. -/
def items (ms : List (String × Value)) : List (String × Value) :=
  ms.flatMap fun m => match m.2 with
    | .arr entries => entries.map (m.1, ·)
    | _ => []

/-- A member of an entry. -/
def field? (key : String) : Value → Option Value
  | .obj fields => Json.member? fields key
  | _ => none

/-- What an entry says of the id. -/
def idFields (v : Value) : Option Value × Option Value := (field? guidKey v, field? subIdKey v)

/-- An entry is that of an id, under the number of a pack. -/
def IsItemOf (id : AssetId) (pack : Int) (item : String × Value) : Prop :=
  item.1 = String.ofList (Numeral.decimalText pack) ∧
    idFields item.2 = (some (.str id.guid.text), some (.int id.subId))

/-- An entry has a path. -/
def IsItemAt (path : String) (item : String × Value) : Prop :=
  field? pathKey item.2 = some (.str path)

/-- A hint file holds one entry for each id that has a pack, under the number of this pack, and
no others. -/
structure HoldsEntries (ms : List (String × Value)) (hasPack : AssetId → Int → Prop) : Prop where
  /-- No id has two entries. -/
  once : ((items ms).map fun item => idFields item.2).Nodup
  /-- An id has an entry under the number of its pack. -/
  entry : ∀ id pack, id.isValid = true →
    ((∃ item ∈ items ms, IsItemOf id pack item) ↔ hasPack id pack)
  /-- Every entry is that of an id. -/
  identified : ∀ item ∈ items ms, ∃ id pack, id.isValid = true ∧ IsItemOf id pack item

/-- The entry of a record, under the number of its pack. -/
def itemOf (r : Record) : String × Value :=
  (String.ofList (Numeral.decimalText r.pack), entry r)

theorem idFields_entry (r : Record) : idFields (entry r) =
    if r.hasIdentity then (some (.str r.id.guid.text), some (.int r.id.subId))
      else (none, none) := by
  obtain ⟨guid, subId, -⟩ := member?_writeEntry r
  rw [idFields, entry, field?, field?, guid, subId]
  cases r.hasIdentity <;> rfl

theorem idFields_injective {a b : AssetId}
    (same : (some (Value.str a.guid.text), some (Value.int a.subId)) =
      (some (Value.str b.guid.text), some (Value.int b.subId))) : a = b := by
  obtain ⟨guids, subIds⟩ := Prod.mk.inj same
  have texts := Value.str.inj (Option.some_inj.1 guids)
  have guid : a.guid = b.guid := Guid.eq_of_textChars (String.ofList_injective texts)
  have subId : a.subId = b.subId := Value.int.inj (Option.some_inj.1 subIds)
  cases a
  cases b
  rw [AssetId.mk.injEq]
  exact ⟨guid, subId⟩

theorem isItemOf_itemOf : IsItemOf id pack (itemOf r) ↔
    r.hasIdentity = true ∧ r.id = id ∧ r.pack = pack := by
  rw [IsItemOf, itemOf, idFields_entry]
  constructor
  · rintro ⟨number, fields⟩
    split at fields
    · next identified =>
      exact ⟨identified, idFields_injective fields, Numeral.eq_of_decimalText number⟩
    · cases fields
  · rintro ⟨identified, rfl, rfl⟩
    exact ⟨rfl, if_pos identified⟩

theorem isItemAt_itemOf : IsItemAt path (itemOf r) ↔ r.path ≠ "" ∧ r.path = path := by
  obtain ⟨-, -, there⟩ := member?_writeEntry r
  rw [IsItemAt, itemOf, entry, field?, there]
  split
  · next unnamed => exact iff_of_false (Option.some_ne_none _).symm fun h => h.1 unnamed
  · next named =>
    rw [Option.some_inj, Value.str.injEq]
    exact (and_iff_right named).symm

/-! ### What is written of named records -/

theorem of_packText {key : String} (h : packText pack = .ok key) :
    Numeral.isTooLong pack = false ∧ key = String.ofList (Numeral.decimalText pack) := by
  unfold packText at h
  split at h
  · next digits found =>
    obtain rfl := Except.ok.inj h
    unfold Numeral.decimal? at found
    split at found
    · cases found
    · next short => exact ⟨Bool.not_eq_true _ ▸ short, (Option.some_inj.1 found).symm⟩
  · cases h

theorem runFrom_writeGroup_of_named (named : ∀ r ∈ rs, r.isNamed = true) :
    (writeGroup pack rs).runFrom told = (.ok (rs.map entry), told) := by
  induction rs with
  | nil => rfl
  | cons r rs ih =>
    rw [List.forall_mem_cons] at named
    rw [writeGroup, if_neg (by rw [writeEntry_eq_nil, named.1]; simp),
      runFrom_bind_ok (ih named.2)]
    rfl

/-- Of groups in which every record is named their entries are written, or nothing. -/
theorem of_writeGroups (named : ∀ e ∈ groups, ∀ r ∈ e.2, r.isNamed = true)
    (written : (writeGroups groups).runFrom told = (.ok ms, told')) :
    ms = members groups ∧ ∀ e ∈ groups, ∀ r ∈ e.2, Numeral.isTooLong e.1 = false := by
  induction groups generalizing told told' ms with
  | nil =>
    cases written
    exact ⟨rfl, List.forall_mem_nil _⟩
  | cons e groups ih =>
    obtain ⟨pack, group⟩ := e
    rw [List.forall_mem_cons] at named
    have all : group.filter Record.isNamed = group := List.filter_eq_self.2 named.1
    rw [writeGroups, runFrom_bind_ok (runFrom_writeGroup_of_named named.1)] at written
    cases said : group.any Record.isNamed with
    | false =>
      have nothing : group = [] := all.symm.trans (filter_isNamed_eq_nil said)
      rw [nothing, List.map_nil, List.isEmpty_nil, if_pos rfl] at written
      obtain ⟨same, packs⟩ := ih named.2 written
      rw [members_cons_of_nobody said]
      exact ⟨same, List.forall_mem_cons.2 ⟨by rw [nothing]; exact List.forall_mem_nil _, packs⟩⟩
    | true =>
      have something := isEmpty_entries_of_somebody said
      rw [all] at something
      rw [something, if_neg (by simp)] at written
      obtain ⟨key, mid, number, written⟩ := exists_of_runFrom_bind written
      obtain ⟨later, last, rest, written⟩ := exists_of_runFrom_bind written
      rw [runFrom_ofExcept] at number
      obtain ⟨short, rfl⟩ := of_packText (Prod.mk.inj number).1
      obtain ⟨rfl, packs⟩ := ih named.2 rest
      cases written
      rw [members_cons_of_somebody said, all]
      exact ⟨rfl, List.forall_mem_cons.2 ⟨fun _ _ => short, packs⟩⟩

variable (records text) in
/-- A text is that of the hint file of records, all of them named. -/
structure IsTextOf : Prop where
  /-- The text is read as an object with a member for each pack. -/
  value : Json.read text = .ok (.obj (members (Groups.ofRecords records).entries))
  /-- Every character of it is visible, but for the line ends. -/
  layout : ∀ c ∈ text.toList, Json.isLayout c = true
  /-- Every record has an id or a path. -/
  named : ∀ r ∈ records, r.isNamed = true
  /-- The numbers that are written can be read again. -/
  packs : ∀ r ∈ records, r.pack ≠ unassigned → Numeral.isTooLong r.pack = false
  subIds : ∀ r ∈ records, r.pack ≠ unassigned → r.hasIdentity = true →
    Numeral.isTooLong r.id.subId = false

/-- What is written of named records is the text of their hint file. -/
theorem isTextOf_of_render (named : ∀ r ∈ records, r.isNamed = true)
    (written : (document records).runFrom told = (.ok v, told'))
    (rendered : render v = .ok text) : IsTextOf records text := by
  obtain ⟨ms, mid, groups, written⟩ := exists_of_runFrom_bind written
  obtain rfl := Except.ok.inj (Prod.mk.inj written).1
  obtain ⟨rfl, packs⟩ := of_writeGroups
    (fun e mem r member => named r (mem_of_mem_groups mem member).1) groups
  rw [render] at rendered
  split at rendered
  · next text' pretty =>
    have subIds : ∀ r ∈ records, r.pack ≠ unassigned → r.hasIdentity = true →
        Numeral.isTooLong r.id.subId = false := by
      intro r mem assigned identified
      obtain ⟨e, there, member⟩ := exists_group mem assigned
      exact subId_short_of_pretty pretty there member identified
    obtain ⟨text'', pretty', value, layout⟩ := (isPlain_document_of_short subIds).exists_pretty
    obtain rfl := Option.some_inj.1 (pretty.symm.trans pretty')
    obtain rfl := Except.ok.inj rendered
    refine ⟨value, layout, named, fun r mem assigned => ?_, subIds⟩
    obtain ⟨e, there, member⟩ := exists_group mem assigned
    rw [(mem_of_mem_groups there member).2.2]
    exact packs e there r member
  · cases rendered

section Accepted

variable (h : IsTextOf records text) {resolver : Resolver}
  (accepted : (readDocument resolver path text).runFrom told = (.ok rs, told'))
include h accepted

/-- If the hint file of records is read at all, their numbers fit. -/
theorem fits_of_readDocument (mem : r ∈ records) (assigned : r.pack ≠ unassigned) :
    (0 ≤ r.pack ∧ Numeral.isTooLong r.pack = false) ∧ r.IdFits := by
  obtain ⟨e, there, member⟩ := exists_group mem assigned
  have same := (mem_of_mem_groups there member).2.2
  have short := h.packs r mem assigned
  refine ⟨⟨?_, short⟩, fun identified => ⟨?_, h.subIds r mem assigned identified⟩⟩
  · rw [same] at short ⊢
    exact pack_nonneg_of_readDocument h.value accepted there member (h.named r mem) short
  · exact subId_nonneg_of_readDocument h.value accepted there member identified

/-- If the hint file of records is read at all, it is read as what is read back of them. -/
theorem eq_of_readDocument :
    rs = ((fileOrder records).filter Record.isNamed).map fun r => (readBack resolver r).1 := by
  have groups := packGroups_ofRecords fun r mem assigned =>
    (fits_of_readDocument h accepted mem assigned).1
  have again : (readDocument resolver path text).runFrom told = _ :=
    runFrom_readDocument_of_members h.value groups fun e there r member => by
      obtain ⟨mem, assigned, -⟩ := mem_of_mem_groups there member
      exact (fits_of_readDocument h accepted mem assigned).2
  exact Except.ok.inj (Prod.mk.inj (accepted.symm.trans again)).1

end Accepted

/-- The entries of groups, each under the number of its pack. -/
theorem items_members (packs : ∀ e ∈ groups, ∀ r ∈ e.2, r.pack = e.1) :
    items (members groups) = ((groups.flatMap Prod.snd).filter Record.isNamed).map itemOf := by
  have entries := flatMap_filter_isNamed (List.map itemOf) rfl groups
  rw [List.filter_flatMap, List.map_flatMap, ← entries, items, members, List.flatMap_map]
  refine List.flatMap_congr fun e mem => ?_
  change List.map _ (List.map entry _) = _
  rw [List.map_map]
  refine List.map_congr_left fun r member => ?_
  rw [itemOf, packs e (List.mem_filter.1 mem).1 r (List.mem_filter.1 member).1]
  rfl

/-- A hint file holds the entries of the records of which it is written. -/
theorem IsTextOf.exists_items (h : IsTextOf records text) :
    ∃ ms, Json.read text = .ok (.obj ms) ∧ (items ms).Perm ((stored records).map itemOf) := by
  refine ⟨_, h.value, ?_⟩
  rw [items_members fun e mem r member => (mem_of_mem_groups mem member).2.2]
  exact (filter_fileOrder_perm Record.isNamed records).map itemOf

/-! ### Ids and paths -/

theorem mem_stored : r ∈ stored records ↔
    r ∈ records ∧ r.pack ≠ unassigned ∧ r.isNamed = true := by
  rw [stored, List.mem_filter, decide_eq_true_eq]

/-- The hint file of records of distinct assets holds one entry for each that has a pack. -/
theorem holdsEntries_of_perm (identified : ∀ r ∈ records, r.hasIdentity = true)
    (distinct : (records.map Record.id).Nodup)
    (held : (items ms).Perm ((stored records).map itemOf)) :
    HoldsEntries ms fun id pack =>
      ∃ r ∈ records, r.pack ≠ unassigned ∧ r.id = id ∧ r.pack = pack := by
  have identified' : ∀ r ∈ stored records, r.hasIdentity = true := fun r mem =>
    identified r (mem_stored.1 mem).1
  refine ⟨?once, ?entry, ?identified⟩
  case once =>
    rw [(held.map _).nodup_iff, List.map_map]
    have apart : ((stored records).map Record.id).Nodup :=
      (List.filter_sublist.map Record.id).nodup distinct
    rw [List.Nodup, List.pairwise_map] at apart ⊢
    refine apart.imp_of_mem fun {r s} memR memS apart same => apart (idFields_injective ?_)
    have entries : idFields (entry r) = idFields (entry s) := same
    rwa [idFields_entry, idFields_entry, if_pos (identified' r memR),
      if_pos (identified' s memS)] at entries
  case entry =>
    intro id pack _
    constructor
    · rintro ⟨item, mem, isItem⟩
      obtain ⟨r, member, rfl⟩ := List.mem_map.1 (held.mem_iff.1 mem)
      exact ⟨r, (mem_stored.1 member).1, (mem_stored.1 member).2.1,
        (isItemOf_itemOf.1 isItem).2⟩
    · rintro ⟨r, mem, assigned, same⟩
      have named := isNamed_of_hasIdentity (identified r mem)
      refine ⟨itemOf r, held.mem_iff.2 (List.mem_map_of_mem ?_), ?_⟩
      · exact mem_stored.2 ⟨mem, assigned, named⟩
      · exact isItemOf_itemOf.2 ⟨identified r mem, same⟩
  case identified =>
    intro item mem
    obtain ⟨r, member, rfl⟩ := List.mem_map.1 (held.mem_iff.1 mem)
    exact ⟨r.id, r.pack, identified' r member,
      isItemOf_itemOf.2 ⟨identified' r member, rfl, rfl⟩⟩

/-- A hint file has an entry with a path if one of the records that have a pack is at it. -/
theorem exists_isItemAt_iff (held : (items ms).Perm ((stored records).map itemOf)) :
    (∃ item ∈ items ms, IsItemAt path item) ↔
      path ≠ "" ∧ ∃ r ∈ records, r.pack ≠ unassigned ∧ r.path = path := by
  constructor
  · rintro ⟨item, mem, isItem⟩
    obtain ⟨r, member, rfl⟩ := List.mem_map.1 (held.mem_iff.1 mem)
    obtain ⟨nonempty, rfl⟩ := isItemAt_itemOf.1 isItem
    exact ⟨nonempty, r, (mem_stored.1 member).1, (mem_stored.1 member).2.1, rfl⟩
  · rintro ⟨nonempty, r, mem, assigned, rfl⟩
    have named : r.isNamed = true := by
      rw [Record.isNamed, decide_eq_true nonempty, Bool.or_true]
    refine ⟨itemOf r, held.mem_iff.2 (List.mem_map_of_mem ?_), isItemAt_itemOf.2 ⟨nonempty, rfl⟩⟩
    exact mem_stored.2 ⟨mem, assigned, named⟩

end PackPlan.Hints
