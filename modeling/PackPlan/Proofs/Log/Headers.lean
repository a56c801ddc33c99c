import PackPlan.Archive.Containers
import PackPlan.Log
import PackPlan.Proofs.Grouping
import PackPlan.Proofs.PathTable

/-!
# Records for headers

An entry of an index that no asset accounts for gets a record for its header, under the entry's
path and its container with an underscore between them. A record whose path is taken is dropped,
by an entry of that path or by the record of another entry; so there is one for each such entry
exactly if all these paths are new and differ.

## Main definitions

* `Log.strangers` — the entries that no asset accounts for
* `Log.headerKey` — the path of an entry's header record
* `Log.HeadersApart` — no header record has a path that is taken

## Main results

* `Log.promote_eq` — the header records, and the index with them
* `Log.getD_mergeHeaders`, `Log.mem_keys_mergeHeaders` — the groups with header records
* `Log.promoted_eq_map_iff` — when every header gets its record in pack zero
-/

namespace PackPlan

namespace Groups

variable {groups : Groups} {pack k : Int}

/-- Records put at the end of one group leave the others as they are. -/
theorem getD_foldl_push (groups : Groups) (k : Int) (rs : List Record) (pack : Int) :
    ((rs.foldl (fun groups r => groups.push k r) groups).get? pack).getD [] =
      (groups.get? pack).getD [] ++ if pack = k then rs else [] := by
  induction rs generalizing groups with
  | nil => rw [ite_self, List.append_nil]; rfl
  | cons r rs ih =>
    rw [List.foldl_cons, ih, Table.push, Table.get?_insert]
    by_cases here : pack = k
    · rw [if_pos here, if_pos here, if_pos here, Option.getD_some, here, List.append_assoc]
      rfl
    · rw [if_neg here, if_neg here, if_neg here]

theorem mem_keys_foldl_push (groups : Groups) (k : Int) (rs : List Record) :
    pack ∈ (rs.foldl (fun groups r => groups.push k r) groups).keys ↔
      pack ∈ groups.keys ∨ pack = k ∧ rs ≠ [] := by
  induction rs generalizing groups with
  | nil => simp
  | cons r rs ih =>
    have grown : pack ∈ (groups.push k r).keys ↔ pack ∈ groups.keys ∨ pack = k := by
      rw [Table.push, Table.keys_insert]
      split
      · next there => exact ⟨.inl, fun either => either.elim id fun same => same ▸ there⟩
      · rw [List.mem_append, List.mem_singleton]
    rw [List.foldl_cons, ih, grown]
    simp only [ne_eq, reduceCtorEq, not_false_eq_true, and_true]
    tauto

/-- A record put into a group is one more record. -/
theorem flatMap_entries_push_perm (groups : Groups) (k : Int) (r : Record) :
    ((groups.push k r).entries.flatMap Prod.snd).Perm (groups.entries.flatMap Prod.snd ++ [r]) := by
  rw [Table.push, Table.insert]
  cases found : groups.get? k with
  | none =>
    have absent : groups.contains k = false := by
      rw [Table.contains, found]
      rfl
    rw [if_neg (by simp), Table.entries_insertNew_of_not_contains absent, List.flatMap_append]
    exact .refl _
  | some group =>
    rw [if_pos Option.isSome_some, Option.getD_some, Table.adjust, Table.map]
    dsimp only
    -- the entry of the pack is the only one that changes
    obtain ⟨before, after, split⟩ := List.append_of_mem (Table.get?_eq_some.1 found)
    have distinct := groups.nodup
    rw [split, List.map_append, List.map_cons, List.nodup_append, List.nodup_cons] at distinct
    have same : ∀ es : List (Int × List Record), (∀ e ∈ es, e.1 ≠ k) →
        (es.map fun e => (e.1, if e.1 = k then group ++ [r] else e.2)).flatMap Prod.snd =
          es.flatMap Prod.snd := by
      intro es others
      rw [List.flatMap_map]
      exact List.flatMap_congr fun e mem => if_neg (others e mem)
    have others : ∀ e ∈ before, e.1 ≠ k := fun e mem =>
      distinct.2.2 e.1 (List.mem_map_of_mem mem) k List.mem_cons_self
    have others' : ∀ e ∈ after, e.1 ≠ k := fun e mem here =>
      distinct.2.1.1 (List.mem_map.2 ⟨e, mem, here⟩)
    rw [split, List.map_append, List.map_cons, List.flatMap_append, List.flatMap_append,
      List.flatMap_cons, List.flatMap_cons, same _ others, same _ others', if_pos rfl]
    rw [List.append_assoc, List.append_assoc, List.append_assoc]
    exact (List.perm_append_comm.append_left _).append_left _

theorem flatMap_entries_foldl_push_perm (groups : Groups) (k : Int) (rs : List Record) :
    ((rs.foldl (fun groups r => groups.push k r) groups).entries.flatMap Prod.snd).Perm
      (groups.entries.flatMap Prod.snd ++ rs) := by
  induction rs generalizing groups with
  | nil => rw [List.append_nil]; exact .refl _
  | cons r rs ih =>
    rw [List.foldl_cons, List.append_cons]
    exact (ih _).trans ((flatMap_entries_push_perm groups k r).append_right rs)

end Groups

namespace Log

variable {isKnown : String → Bool} {index : PathTable} {entries : List Record} {e : Record}
  {groups : Groups} {promoted : List Record} {group : List Record} {pack : Int}

/-! ### Entries that no asset accounts for -/

/-- The entries of an index that no asset accounts for. -/
def strangers (isKnown : String → Bool) (index : PathTable) : List Record :=
  index.values.filter fun e => !isKnown e.path

/-- The path of the record for the header of an entry. -/
def headerKey (e : Record) : String := (headerRecord e).path

theorem promoteEntries_eq (isKnown : String → Bool) (entries : List Record) (index : PathTable) :
    promoteEntries isKnown entries index =
      (((entries.filter fun e => !isKnown e.path).map headerRecord).foldl
          (fun t r => (t.add r.path r).1) index,
        PathTable.firsts (((entries.filter fun e => !isKnown e.path).map headerRecord).filter
          fun r => !index.contains r.path)) := by
  induction entries generalizing index with
  | nil => rfl
  | cons entry entries ih =>
    rw [promoteEntries]
    cases known : isKnown entry.path with
    | true =>
      rw [if_pos rfl, List.filter_cons_of_neg (by simp [known])]
      exact ih index
    | false =>
      dsimp only
      rw [if_neg Bool.false_ne_true, List.filter_cons_of_pos (by simp [known]), List.map_cons,
        List.foldl_cons, ih, List.filter_cons]
      -- the record is dropped where its path is taken, and then the index is what it was
      cases taken : index.contains (headerRecord entry).path with
      | true =>
        rw [PathTable.add, taken, Table.insertNew_of_contains taken]
        rfl
      | false =>
        rw [PathTable.firsts_filter_add, PathTable.add, taken]
        rfl

/-- The header records are the first of each path that is not taken, and they all go into the
index. -/
theorem promote_eq (isKnown : String → Bool) (index : PathTable) : promote isKnown index =
    (((strangers isKnown index).map headerRecord).foldl (fun t r => (t.add r.path r).1) index,
      PathTable.firsts (((strangers isKnown index).map headerRecord).filter
        fun r => !index.contains r.path)) :=
  promoteEntries_eq isKnown index.values index

/-- No header record has a path that is taken, by an entry or by the record of another entry. -/
structure HeadersApart (isKnown : String → Bool) (index : PathTable) : Prop where
  distinct : ((strangers isKnown index).map headerKey).Nodup
  fresh : ∀ e ∈ strangers isKnown index, headerKey e ∉ index.keys

instance (isKnown : String → Bool) (index : PathTable) : Decidable (HeadersApart isKnown index) :=
  decidable_of_iff (((strangers isKnown index).map headerKey).Nodup ∧
      ∀ e ∈ strangers isKnown index, headerKey e ∉ index.keys)
    ⟨fun h => ⟨h.1, h.2⟩, fun h => ⟨h.1, h.2⟩⟩

/-- No header record is dropped exactly if none has a path that is taken. -/
theorem promote_snd_eq_map_iff : (promote isKnown index).2 =
    (strangers isKnown index).map headerRecord ↔ HeadersApart isKnown index := by
  rw [promote_eq]
  dsimp only
  constructor
  · intro all
    have nodup := PathTable.nodup_firsts (((strangers isKnown index).map headerRecord).filter
      fun r => !index.contains r.path)
    have fresh : ∀ r ∈ PathTable.firsts (((strangers isKnown index).map headerRecord).filter
        fun r => !index.contains r.path), index.contains r.path = false := fun r mem => by
      simpa using (List.mem_filter.1 ((PathTable.firsts_sublist _).subset mem)).2
    rw [all] at nodup fresh
    rw [List.map_map] at nodup
    refine ⟨nodup, fun e mem there => ?_⟩
    have absent : index.contains (headerKey e) = false := fresh _ (List.mem_map_of_mem mem)
    rw [Table.contains_iff.2 there] at absent
    cases absent
  · rintro ⟨distinct, fresh⟩
    rw [List.filter_eq_self.2, PathTable.firsts_eq_self]
    · rw [List.map_map]
      exact distinct
    · intro r mem
      obtain ⟨e, stranger, rfl⟩ := List.mem_map.1 mem
      rw [Bool.not_eq_true', ← Bool.not_eq_true, Table.contains_iff]
      exact fresh e stranger

/-! ### The groups with header records -/

/-- Header records are put at the end of pack zero, in order. -/
theorem getD_mergeHeaders (groups : Groups) (promoted : List Record) (pack : Int) :
    ((mergeHeaders groups promoted).get? pack).getD [] =
      (groups.get? pack).getD [] ++ if pack = headerPack then Record.sort promoted else [] := by
  rw [mergeHeaders, Groups.get?_ascending, Groups.getD_foldl_push]

theorem mem_keys_mergeHeaders : pack ∈ (mergeHeaders groups promoted).keys ↔
    pack ∈ groups.keys ∨ pack = headerPack ∧ promoted ≠ [] := by
  rw [mergeHeaders, Groups.mem_keys_ascending, Groups.mem_keys_foldl_push]
  have same : Record.sort promoted = [] ↔ promoted = [] := by
    rw [← List.length_eq_zero_iff, (Record.sort_perm promoted).length_eq, List.length_eq_zero_iff]
  rw [ne_eq, same]

/-- No record is lost or added but the header records. -/
theorem flatMap_mergeHeaders_perm (groups : Groups) (promoted : List Record) :
    ((mergeHeaders groups promoted).entries.flatMap Prod.snd).Perm
      (groups.entries.flatMap Prod.snd ++ promoted) := by
  rw [mergeHeaders]
  refine ((Groups.entries_ascending_perm _).flatMap_right Prod.snd).trans ?_
  exact (Groups.flatMap_entries_foldl_push_perm _ _ _).trans
    ((Record.sort_perm promoted).append_left _)

/-- The header records are those of the entries that no asset accounts for, the first of each path
that is not taken, and they are put into pack zero. Every such entry has its record there exactly if
no path is taken. -/
theorem promoted_eq_map_iff (isKnown : String → Bool) (index : PathTable) (groups : Groups) :
    (promote isKnown index).2 =
        PathTable.firsts (((strangers isKnown index).map headerRecord).filter
          fun r => !index.contains r.path) ∧
      ((promote isKnown index).2 = (strangers isKnown index).map headerRecord ↔
        HeadersApart isKnown index) ∧
      ((mergeHeaders groups (promote isKnown index).2).get? headerPack).getD [] =
        (groups.get? headerPack).getD [] ++ Record.sort (promote isKnown index).2 := by
  refine ⟨congrArg Prod.snd (promote_eq isKnown index), promote_snd_eq_map_iff, ?_⟩
  rw [getD_mergeHeaders, if_pos rfl]

/-- An archive of two members, of which the second is named as the header of the first in a
container of one name. -/
def gluedNames : Bytes :=
  -- the local headers, with the names, and two bytes of data each
  [0x50, 0x4b, 0x03, 0x04, 20, 0, 0, 0, 0, 0, 0, 0, 0, 0, 0, 0, 0, 0, 2, 0, 0, 0, 2, 0, 0, 0, 1, 0,
    0, 0, 0x78, 0x68, 0x69,
    0x50, 0x4b, 0x03, 0x04, 20, 0, 0, 0, 0, 0, 0, 0, 0, 0, 0, 0, 0, 0, 2, 0, 0, 0, 2, 0, 0, 0, 8, 0,
    0, 0, 0x78, 0x5f, 0x73, 0x2e, 0x62, 0x70, 0x61, 0x6b, 0x68, 0x69,
  -- the entries of the directory, with the names
    0x50, 0x4b, 0x01, 0x02, 20, 0, 20, 0, 0, 0, 0, 0, 0, 0, 0, 0, 0, 0, 0, 0, 2, 0, 0, 0, 2, 0, 0,
    0, 1, 0, 0, 0, 0, 0, 0, 0, 0, 0, 0, 0, 0, 0, 0, 0, 0, 0, 0x78,
    0x50, 0x4b, 0x01, 0x02, 20, 0, 20, 0, 0, 0, 0, 0, 0, 0, 0, 0, 0, 0, 0, 0, 2, 0, 0, 0, 2, 0, 0,
    0, 8, 0, 0, 0, 0, 0, 0, 0, 0, 0, 0, 0, 0, 0, 33, 0, 0, 0, 0x78, 0x5f, 0x73, 0x2e, 0x62, 0x70,
    0x61, 0x6b,
  -- the end record
    0x50, 0x4b, 0x05, 0x06, 0, 0, 0, 0, 2, 0, 2, 0, 101, 0, 0, 0, 73, 0, 0, 0, 0, 0]

/-- A container of that name. -/
def gluedContainer : Workspace where
  files := { nodes := ⟨[(["s.bpak"], .file gluedNames)], by simp⟩ }

/-- Of two entries that no asset accounts for, one has no header record. -/
theorem promote_loses_header : ∃ i w',
    (Containers.index Containers.zipReader ⟨"", []⟩ "s*" false).run gluedContainer = (.ok i, w') ∧
      (strangers (fun _ => false) i.entries).map Record.path = ["x", "x_s.bpak"] ∧
      (promote (fun _ => false) i.entries).2.map Record.path = ["x_s.bpak_s.bpak"] := by
  have read : ((Containers.index Containers.zipReader ⟨"", []⟩ "s*" false).run
      gluedContainer).1.toOption.map (fun i =>
        ((strangers (fun _ => false) i.entries).map Record.path,
          (promote (fun _ => false) i.entries).2.map Record.path)) =
      some (["x", "x_s.bpak"], ["x_s.bpak_s.bpak"]) := by decide +kernel
  generalize (Containers.index Containers.zipReader ⟨"", []⟩ "s*" false).run gluedContainer = r
    at read ⊢
  obtain ⟨r, w'⟩ := r
  cases r with
  | error fault => cases read
  | ok i =>
    have same := Option.some.inj read
    exact ⟨i, w', rfl, congrArg Prod.fst same, congrArg Prod.snd same⟩

end Log

end PackPlan
