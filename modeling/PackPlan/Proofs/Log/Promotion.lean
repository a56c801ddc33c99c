import PackPlan.Proofs.Log.Headers

/-!
# Promotion

Header records are put into the index from which they are made. The entries that are looked at are
those that the index had before, so that no header record gets a header record of its own. An index
grows at its end only: an entry stays where it is, and a header record whose path is taken is left
out, of the index and of what is promoted alike. Among the groups, header records come last in pack
zero, and nothing else changes.

## Main definitions

* `Log.IsPromotion` — how an index and its header records stand to the index before
* `Log.IsMerged` — how groups with header records stand to those without

## Main results

* `Log.get?_mergeHeaders_of_get?`, `Log.get?_mergeHeaders_of_ne` — each group with header records
* `Log.isPromotion_promote` — an index in which every entry stands under its own path is promoted
* `Log.isMerged_mergeHeaders` — header records are merged into the groups
* `Log.promote_and_mergeHeaders` — both, one after the other
-/

namespace PackPlan.Log

variable {isKnown : String → Bool} {index : PathTable} {groups : Groups} {promoted : List Record}
  {r : Record} {group : List Record} {pack : Int}

/-! ### What is said of header records -/

/-- The index `after` is the index `before` with the header records `promoted`. -/
structure IsPromotion (isKnown : String → Bool) (before after : PathTable)
    (promoted : List Record) : Prop where
  /-- The header records come after all entries, each under its own path. -/
  entries : after.entries = before.entries ++ promoted.map fun r => (r.path, r)
  /-- An entry is found where it was found before. -/
  kept : ∀ path e, before.get? path = some e → after.get? path = some e
  /-- Header records are made of entries of the index before, in their order, and of none that has
  just been put there. -/
  sources : ∃ sources : List Record, sources.Sublist (strangers isKnown before) ∧
    promoted = sources.map headerRecord ∧ ∀ e ∈ sources, e ∉ promoted
  /-- Of the header records of a path that no entry has, the first is promoted. -/
  chosen : ∀ r, r ∈ promoted ↔ r.path ∉ before.keys ∧
    ((strangers isKnown before).map headerRecord).find? (·.path = r.path) = some r
  /-- A header record is found under its own path. -/
  found : ∀ r ∈ promoted, after.get? r.path = some r
  /-- Header records are of pack zero. -/
  pack : ∀ r ∈ promoted, r.pack = 0
  /-- A header record has the range of the header of an entry that no asset accounts for. -/
  range : ∀ r ∈ promoted, ∃ e ∈ before.values, isKnown e.path = false ∧ r.bundle = e.bundle ∧
    r.payloadOffset = e.headerOffset ∧ r.payloadSize = e.headerSize ∧
      r.headerOffset = e.headerOffset ∧ r.headerSize = e.headerSize

/-- The groups `after` are the groups `before` with the records `promoted`. -/
structure IsMerged (before after : Groups) (promoted : List Record) : Prop where
  /-- A group begins with the records that it had before. -/
  kept : ∀ pack group, before.get? pack = some group →
    ∃ group', after.get? pack = some group' ∧ group <+: group'
  /-- There is a new group only for promoted records, in pack zero. -/
  packs : ∀ pack, pack ∈ after.keys ↔ pack ∈ before.keys ∨ pack = 0 ∧ promoted ≠ []
  /-- No other group than that of pack zero changes. -/
  others : ∀ pack, pack ≠ 0 → after.get? pack = before.get? pack
  /-- In pack zero exactly the promoted records are added. -/
  added : ∃ added : List Record, added.Perm promoted ∧
    (after.get? 0).getD [] = (before.get? 0).getD [] ++ added
  /-- No record is lost, and none is there twice that was not before. -/
  all : (after.entries.flatMap Prod.snd).Perm (before.entries.flatMap Prod.snd ++ promoted)

/-! ### Promoted records -/

theorem entries_promote (isKnown : String → Bool) (index : PathTable) :
    (promote isKnown index).1.entries =
      index.entries ++ (promote isKnown index).2.map fun r => (r.path, r) := by
  rw [promote_eq]
  exact PathTable.entries_foldl_add index _

/-- Of the header records of a path that no entry has, the first is promoted. -/
theorem mem_promote_iff : r ∈ (promote isKnown index).2 ↔ r.path ∉ index.keys ∧
    ((strangers isKnown index).map headerRecord).find? (·.path = r.path) = some r := by
  rw [promote_eq]
  dsimp only
  rw [← PathTable.firsts_filter fun path => !index.contains path, List.mem_filter,
    PathTable.mem_firsts_iff, Bool.not_eq_true', ← Bool.not_eq_true, Table.contains_iff]
  exact And.comm

/-- Header records are made of entries, in their order. -/
theorem exists_sources_promote (isKnown : String → Bool) (index : PathTable) :
    ∃ sources : List Record, sources.Sublist (strangers isKnown index) ∧
      (promote isKnown index).2 = sources.map headerRecord := by
  rw [promote_eq]
  exact List.sublist_map_iff.1 ((PathTable.firsts_sublist _).trans List.filter_sublist)

/-- What is promoted was no entry before, as an entry stands under its own path. -/
theorem not_mem_values_of_mem_promote (keyed : index.IsKeyed)
    (mem : r ∈ (promote isKnown index).2) : r ∉ index.values := by
  intro there
  refine (mem_promote_iff.1 mem).1 ?_
  rw [← keyed.map_path_values]
  exact List.mem_map_of_mem there

theorem isPromotion_promote (keyed : index.IsKeyed) (isKnown : String → Bool) :
    IsPromotion isKnown index (promote isKnown index).1 (promote isKnown index).2 := by
  have entries := entries_promote isKnown index
  obtain ⟨sources, sub, made⟩ := exists_sources_promote isKnown index
  have stranger : ∀ e ∈ sources, e ∈ index.values ∧ isKnown e.path = false := fun e mem => by
    simpa using List.mem_filter.1 (sub.subset mem)
  have ofEntry : ∀ r ∈ (promote isKnown index).2, ∃ e ∈ sources, headerRecord e = r := by
    rw [made]
    exact fun r mem => List.mem_map.1 mem
  exact
    { entries
      kept := fun path e found => by
        rw [Table.get?_eq_some, entries]
        exact List.mem_append_left _ (Table.get?_eq_some.1 found)
      sources := ⟨sources, sub, made, fun e mem again =>
        not_mem_values_of_mem_promote keyed again (stranger e mem).1⟩
      chosen := fun r => mem_promote_iff
      found := fun r mem => by
        rw [Table.get?_eq_some, entries]
        exact List.mem_append_right _ (List.mem_map_of_mem mem)
      pack := fun r mem => by
        obtain ⟨e, -, rfl⟩ := ofEntry r mem
        rfl
      range := fun r mem => by
        obtain ⟨e, source, rfl⟩ := ofEntry r mem
        exact ⟨e, (stranger e source).1, (stranger e source).2, rfl, rfl, rfl, rfl, rfl⟩ }

/-! ### Merged records -/

theorem get?_mergeHeaders_of_get? (found : groups.get? pack = some group)
    (promoted : List Record) : (mergeHeaders groups promoted).get? pack =
      some (group ++ if pack = headerPack then Record.sort promoted else []) := by
  have there : pack ∈ (mergeHeaders groups promoted).keys := by
    refine mem_keys_mergeHeaders.2 (.inl ?_)
    rw [← Table.contains_iff, Table.contains, found]
    rfl
  obtain ⟨group', found'⟩ := Option.isSome_iff_exists.1 (Table.contains_iff.2 there)
  have whole := getD_mergeHeaders groups promoted pack
  rw [found', found, Option.getD_some, Option.getD_some] at whole
  rw [found', whole]

theorem get?_mergeHeaders_of_ne (other : pack ≠ headerPack) (groups : Groups)
    (promoted : List Record) : (mergeHeaders groups promoted).get? pack = groups.get? pack := by
  cases found : groups.get? pack with
  | some group =>
    rw [get?_mergeHeaders_of_get? found, if_neg other, List.append_nil]
  | none =>
    rw [Table.get?_eq_none, mem_keys_mergeHeaders, not_or]
    exact ⟨Table.get?_eq_none.1 found, fun here => other here.1⟩

theorem isMerged_mergeHeaders (groups : Groups) (promoted : List Record) :
    IsMerged groups (mergeHeaders groups promoted) promoted where
  kept := fun _ _ found => ⟨_, get?_mergeHeaders_of_get? found promoted, List.prefix_append _ _⟩
  packs := fun _ => mem_keys_mergeHeaders
  others := fun _ other => get?_mergeHeaders_of_ne other groups promoted
  added := ⟨Record.sort promoted, Record.sort_perm promoted,
    (getD_mergeHeaders groups promoted headerPack).trans (by rw [if_pos rfl]; rfl)⟩
  all := flatMap_mergeHeaders_perm groups promoted

/-- Header records are promoted without a change to what was in the index before, and merged without
a change to what was in the groups. -/
theorem promote_and_mergeHeaders (keyed : index.IsKeyed) (isKnown : String → Bool)
    (groups : Groups) :
    IsPromotion isKnown index (promote isKnown index).1 (promote isKnown index).2 ∧
      IsMerged groups (mergeHeaders groups (promote isKnown index).2) (promote isKnown index).2 :=
  ⟨isPromotion_promote keyed isKnown, isMerged_mergeHeaders groups _⟩

/-- An index of four entries. The header record of the first has the path of the second, and those
of the third and of the fourth have one path. -/
def tiedIndex : PathTable where
  entries := [("a", { path := "a", bundle := "b.pak", headerSize := 31 }),
    ("a_b.pak", { path := "a_b.pak", bundle := "b.pak", headerOffset := 33, headerSize := 37 }),
    ("x", { path := "x", bundle := "y_z", headerSize := 31 }),
    ("x_y", { path := "x_y", bundle := "z", headerOffset := 40, headerSize := 33 })]
  nodup := by decide

/-- Groups of two packs, the higher one first. -/
def tiedGroups : Groups where
  entries := [(7, [{ path := "k", pack := 7 }]), (0, [{ path := "m", pack := 0 }])]
  nodup := by decide

theorem promote_and_mergeHeaders_tied : tiedIndex.IsKeyed ∧
    (promote (fun _ => false) tiedIndex).2.map (fun r => (r.path, r.payloadOffset)) =
      [("a_b.pak_b.pak", 33), ("x_y_z", 0)] ∧
    IsPromotion (fun _ => false) tiedIndex (promote (fun _ => false) tiedIndex).1
      (promote (fun _ => false) tiedIndex).2 ∧
    IsMerged tiedGroups (mergeHeaders tiedGroups (promote (fun _ => false) tiedIndex).2)
      (promote (fun _ => false) tiedIndex).2 := by
  have keyed : tiedIndex.IsKeyed := by
    have all : ∀ e ∈ tiedIndex.entries, e.2.path = e.1 := by decide
    exact fun path r found => all (path, r) (Table.get?_eq_some.1 found)
  have promoted : (promote (fun _ => false) tiedIndex).2.map (fun r => (r.path, r.payloadOffset)) =
      [("a_b.pak_b.pak", 33), ("x_y_z", 0)] := by decide
  exact ⟨keyed, promoted, promote_and_mergeHeaders keyed (fun _ => false) tiedGroups⟩

end PackPlan.Log
