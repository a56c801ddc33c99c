import PackPlan.Command.Bundles
import PackPlan.Proofs.Log.Blocks
import PackPlan.Proofs.Log.Headers

/-!
# Profiling logs

The profiling log of a plan and an index has a block for each pack of the plan, with a line for
each of its assets that the index has, and in pack zero lines for the headers of the entries that no
asset accounts for. Of each asset that the index does not have there is a warning.

## Main definitions

* `Log.IsBlock`, `Log.IsProfile` — the blocks that a profiling log is to have
* `Log.HeadersFree` — no header record has a path that is taken or that an asset has
* `Log.Counts` — no other record hides a record of a plan

## Main results

* `Log.items_of_log` — the blocks of a log and what is told of it, by look-up
* `Log.isProfile_of_log` — a log has the blocks that it is to have
* `Log.accounts_of_log` — a record that counts has a line or a warning
-/

namespace PackPlan

namespace Log

variable {known index : PathTable} {items : List Item} {told told' : List Notice}
  {pack : Int} {r s e : Record} {records : List Record}

/-! ### What a log looks up -/

/-- The index with the header records that go with a plan. -/
abbrev grown (known index : PathTable) : PathTable := (promote known.contains index).1

/-- The groups of a plan with the header records. -/
abbrev grouped (known index : PathTable) : Groups :=
  mergeHeaders (Groups.ofRecords known.values) (promote known.contains index).2

/-- A log consists of the places that its groups have in the index with the header records. -/
theorem items_of_log (ran : (Bundles.log known index).runFrom told = (.ok items, told')) :
    items = frame (blocksOf (fun r => (grown known index).get? r.path) (grouped known index)) ∧
      told' = told ++
        ((grouped known index).ascending.entries.flatMap Prod.snd).flatMap
          (placing (grown known index)) := by
  rw [Bundles.log] at ran
  dsimp only at ran
  rw [nonemptyProfiling] at ran
  split at ran
  · cases ran
  · exact (places_placeIn _).renderGroups ran

theorem get?_grown (known index : PathTable) (path : String) : (grown known index).get? path =
    (index.get? path).or
      (((strangers known.contains index).map headerRecord).find? (·.path = path)) := by
  rw [grown, promote_eq, PathTable.get?_foldl_add]

/-- A path that no header record has is looked up in the index. -/
theorem get?_grown_of_forall_ne {path : String}
    (apart : ∀ e ∈ strangers known.contains index, headerKey e ≠ path) :
    (grown known index).get? path = index.get? path := by
  have none : ((strangers known.contains index).map headerRecord).find? (·.path = path) = none := by
    rw [List.find?_eq_none]
    intro r mem
    obtain ⟨e, stranger, rfl⟩ := List.mem_map.1 mem
    exact fun same => apart e stranger (of_decide_eq_true same)
  rw [get?_grown, none, Option.or_none]

/-- Header records are found under their own paths if these are new and differ. -/
theorem get?_grown_headerKey (apart : HeadersApart known.contains index)
    (stranger : e ∈ strangers known.contains index) :
    (grown known index).get? (headerKey e) = some (headerRecord e) := by
  rw [get?_grown, Table.get?_eq_none.2 (apart.fresh e stranger), Option.none_or]
  have distinct : (((strangers known.contains index).map headerRecord).map Record.path).Nodup := by
    rw [List.map_map]
    exact apart.distinct
  rw [← PathTable.firsts_eq_self distinct, PathTable.find?_firsts]
  have mem := List.mem_map_of_mem (f := headerRecord) stranger
  rw [← PathTable.firsts_eq_self distinct] at mem
  exact PathTable.mem_firsts_iff.1 mem

/-! ### The blocks of a log -/

/-- The line of the header of an entry. -/
def headerLine (e : Record) : String := lineOf e.bundle e.headerOffset e.headerSize

/-- The lines of a pack: those of its assets that the index has, in order of path and id, and in
pack zero those of the headers of the entries that no asset accounts for, in order of their keys. -/
structure IsBlock (known index : PathTable) (pack : Int) (assets headers : List Record)
    (lines : List String) : Prop where
  assets_perm : assets.Perm (known.values.filter (·.pack = pack))
  assets_order : assets.Pairwise fun r s =>
    r.path < s.path ∨ r.path = s.path ∧ r.id.text ≤ s.id.text
  headers_perm : headers.Perm (if pack = headerPack then strangers known.contains index else [])
  headers_order : headers.Pairwise fun e e' => headerKey e < headerKey e'
  lines_eq : lines =
    assets.filterMap (fun r => (index.get? r.path).map payloadLine) ++ headers.map headerLine

/-- The blocks of a plan and an index: the packs of assets, and pack zero if there are entries that
no asset accounts for. -/
structure IsProfile (known index : PathTable) (blocks : List (Int × List String)) : Prop where
  ascending : (blocks.map Prod.fst).Pairwise (· < ·)
  packs : ∀ pack, pack ∈ blocks.map Prod.fst ↔
    (pack ≠ unassigned ∧ ∃ r ∈ known.values, r.pack = pack) ∨
      (pack = headerPack ∧ strangers known.contains index ≠ [])
  block : ∀ b ∈ blocks, ∃ assets headers, IsBlock known index b.1 assets headers b.2

/-- No header record has a path that is taken, or that an asset of the plan has. -/
structure HeadersFree (known index : PathTable) : Prop
    extends HeadersApart known.contains index where
  unknown : ∀ e ∈ strangers known.contains index, headerKey e ∉ known.keys

instance (known index : PathTable) : Decidable (HeadersFree known index) :=
  decidable_of_iff (HeadersApart known.contains index ∧
      ∀ e ∈ strangers known.contains index, headerKey e ∉ known.keys)
    ⟨fun h => ⟨h.1, h.2⟩, fun h => ⟨h.1, h.2⟩⟩

namespace HeadersFree

theorem get?_grown_path (free : HeadersFree known index) (keyed : known.IsKeyed)
    (mem : r ∈ known.values) : (grown known index).get? r.path = index.get? r.path := by
  refine get?_grown_of_forall_ne fun e stranger same => free.unknown e stranger ?_
  rw [same, ← keyed.map_path_values]
  exact List.mem_map_of_mem mem

theorem mem_keys_grouped (free : HeadersFree known index) :
    pack ∈ (grouped known index).keys ↔ (pack ≠ unassigned ∧ ∃ r ∈ known.values, r.pack = pack) ∨
      (pack = headerPack ∧ strangers known.contains index ≠ []) := by
  rw [mem_keys_mergeHeaders, promote_snd_eq_map_iff.2 free.toHeadersApart, ne_eq,
    List.map_eq_nil_iff, Groups.mem_keys_ofRecords]
  refine or_congr_left ?_
  simp only [Groups.mem_kept_false]
  constructor
  · rintro ⟨r, ⟨mem, assigned⟩, rfl⟩
    exact ⟨assigned, r, mem, rfl⟩
  · rintro ⟨assigned, r, mem, rfl⟩
    exact ⟨r, ⟨mem, assigned⟩, rfl⟩

/-- The header records of pack zero are those of the entries in the order of their keys. -/
theorem exists_sort_promoted (free : HeadersFree known index) :
    ∃ headers : List Record, headers.Perm (strangers known.contains index) ∧
      (headers.Pairwise fun e e' => headerKey e < headerKey e') ∧
      Record.sort (promote known.contains index).2 = headers.map headerRecord := by
  let order := fun e e' => (headerRecord e).le (headerRecord e')
  have map : ((strangers known.contains index).mergeSort order).map headerRecord =
      Record.sort ((strangers known.contains index).map headerRecord) :=
    List.map_mergeSort fun _ _ _ _ => rfl
  have perm := List.mergeSort_perm (strangers known.contains index) order
  refine ⟨(strangers known.contains index).mergeSort order, perm, ?_, ?_⟩
  · have sorted := Record.pairwise_sort ((strangers known.contains index).map headerRecord)
    rw [← map, List.pairwise_map] at sorted
    have distinct := (perm.map headerKey).nodup_iff.2 free.distinct
    rw [List.nodup_iff_pairwise_ne, List.pairwise_map] at distinct
    refine (sorted.and distinct).imp fun {e e'} both => ?_
    rcases Record.le_iff.1 both.1 with below | ⟨same, -⟩
    · exact below
    · exact absurd same both.2
  · rw [promote_snd_eq_map_iff.2 free.toHeadersApart, map]

theorem exists_isBlock (free : HeadersFree known index) (keyed : known.IsKeyed)
    {group : List Record} (found : (grouped known index).get? pack = some group) :
    ∃ assets headers, IsBlock known index pack assets headers
      (blockOf (fun r => (grown known index).get? r.path) group) := by
  have assigned : pack ≠ unassigned := by
    have key : pack ∈ (grouped known index).keys := by
      rw [← Table.contains_iff, Table.contains, found]
      rfl
    rcases free.mem_keys_grouped.1 key with ⟨assigned, -⟩ | ⟨rfl, -⟩
    · exact assigned
    · decide
  obtain ⟨headers, perm, order, sorted⟩ := free.exists_sort_promoted
  have content := getD_mergeHeaders (Groups.ofRecords known.values)
    (promote known.contains index).2 pack
  rw [found, Option.getD_some, Groups.getD_ofRecords, Groups.filter_kept_false assigned,
    sorted] at content
  have member : ∀ r ∈ Record.sort (known.values.filter (·.pack = pack)), r ∈ known.values :=
    fun r mem => (List.mem_filter.1 ((Record.sort_perm _).mem_iff.1 mem)).1
  refine ⟨Record.sort (known.values.filter (·.pack = pack)),
    if pack = headerPack then headers else [], Record.sort_perm _,
    (Record.pairwise_sort _).imp Record.le_iff.1, ?_, ?_, ?_⟩
  · split
    · exact perm
    · exact .refl _
  · split
    · exact order
    · exact .nil
  · rw [content, blockOf, List.filterMap_append]
    congr 1
    · refine List.filterMap_congr fun r mem => ?_
      rw [free.get?_grown_path keyed (member r mem)]
    · split
      · rw [List.filterMap_map, ← List.filterMap_eq_map]
        refine List.filterMap_congr fun e mem => ?_
        have key : (grown known index).get? (headerRecord e).path = some (headerRecord e) :=
          get?_grown_headerKey free.toHeadersApart (perm.mem_iff.1 mem)
        rw [Function.comp_apply, key]
        rfl
      · rfl

end HeadersFree

/-! ### The warnings of a log -/

/-- There is one warning for each record of a group that has no place. -/
theorem filter_isWarning_flatMap_placing (index : PathTable) (rs : List Record) :
    (rs.flatMap (placing index)).filter (·.isWarning) =
      (rs.filter fun r => !index.contains r.path).map missing := by
  rw [List.filter_flatMap]
  induction rs with
  | nil => rfl
  | cons r rs ih =>
    rw [List.flatMap_cons, ih, filter_isWarning_placing]
    cases there : index.contains r.path with
    | true => rw [List.filter_cons_of_neg (by simp [there])]; rfl
    | false => rw [List.filter_cons_of_pos (by simp [there])]; rfl

/-- The groups hold the assigned records of a plan and the header records. -/
theorem grouped_perm (known index : PathTable) :
    ((grouped known index).ascending.entries.flatMap Prod.snd).Perm
      (Groups.kept false known.values ++ (promote known.contains index).2) :=
  ((Groups.entries_ascending_perm _).flatMap_right Prod.snd).trans
    ((flatMap_mergeHeaders_perm _ _).trans ((Groups.perm_ofRecords _ _).append_right _))

/-- A log has the blocks that it is to have, and there is one warning for each assigned asset that
the index does not have. -/
theorem isProfile_of_log (keyed : known.IsKeyed) (free : HeadersFree known index)
    (ran : (Bundles.log known index).runFrom told = (.ok items, told')) :
    ∃ blocks, items = frame blocks ∧ IsProfile known index blocks ∧
      ∃ warnings, told'.filter (·.isWarning) = told.filter (·.isWarning) ++ warnings ∧
        warnings.Perm ((known.values.filter fun r =>
          r.pack ≠ unassigned && !index.contains r.path).map missing) := by
  obtain ⟨rfl, rfl⟩ := items_of_log ran
  refine ⟨_, rfl, ⟨?_, fun pack => ?_, fun b mem => ?_⟩, _, List.filter_append _ _, ?_⟩
  · rw [keys_blocksOf]
    exact Groups.pairwise_keys_ascending _
  · rw [keys_blocksOf, Groups.mem_keys_ascending]
    exact free.mem_keys_grouped
  · obtain ⟨group, found, lines⟩ := mem_blocksOf.1 mem
    rw [lines]
    exact free.exists_isBlock keyed found
  · rw [filter_isWarning_flatMap_placing]
    refine (((grouped_perm known index).filter _).map missing).trans (.of_eq ?_)
    -- header records are there, and for assets the header records make no difference
    have headers : (promote known.contains index).2.filter
        (fun r => !(grown known index).contains r.path) = [] := by
      rw [List.filter_eq_nil_iff, promote_snd_eq_map_iff.2 free.toHeadersApart]
      intro r mem
      obtain ⟨e, stranger, rfl⟩ := List.mem_map.1 mem
      have key : (grown known index).get? (headerRecord e).path = some (headerRecord e) :=
        get?_grown_headerKey free.toHeadersApart stranger
      rw [Table.contains, key]
      exact Bool.false_ne_true
    have assets : (Groups.kept false known.values).filter
        (fun r => !(grown known index).contains r.path) =
          known.values.filter fun r => r.pack ≠ unassigned && !index.contains r.path := by
      rw [Groups.kept, List.filter_filter]
      refine List.filter_congr fun r mem => ?_
      rw [Table.contains, free.get?_grown_path keyed mem, Bool.and_comm]
      rfl
    rw [List.filter_append, headers, assets, List.append_nil]

/-! ### Records that count -/

/-- No other record hides a record of a plan: the first one of its path is assigned to a pack and is
called the same, and no header record takes the path from the index. -/
structure Counts (records : List Record) (index : PathTable) (r : Record) : Prop where
  first : ∃ s, records.find? (·.path = r.path) = some s ∧ s.pack ≠ unassigned ∧ label s = label r
  free : index.contains r.path = true ∨
    ∀ e ∈ strangers (PathTable.gather [records]).contains index, headerKey e ≠ r.path

instance (records : List Record) (index : PathTable) (r : Record) :
    Decidable (Counts records index r) :=
  decidable_of_iff
    ((records.find? (·.path = r.path)).any
        (fun s => s.pack ≠ unassigned ∧ label s = label r) = true ∧
      (index.contains r.path = true ∨
        ∀ e ∈ strangers (PathTable.gather [records]).contains index, headerKey e ≠ r.path))
    ⟨fun h => ⟨by simpa [Option.any_eq_true] using h.1, h.2⟩,
      fun h => ⟨by simpa [Option.any_eq_true] using h.first, h.free⟩⟩

/-- A record that counts has the line of its place in the index, or there is a warning of it. -/
theorem accounts_of_log (counts : Counts records index r)
    (ran : (Bundles.log (PathTable.gather [records]) index).runFrom told = (.ok items, told')) :
    (∃ placed, index.get? r.path = some placed ∧ .record (payloadLine placed) ∈ items) ∨
      missing r ∈ told' := by
  obtain ⟨rfl, rfl⟩ := items_of_log ran
  obtain ⟨s, first, assigned, named⟩ := counts.first
  have path : s.path = r.path := by simpa using List.find?_some first
  have look : (grown (PathTable.gather [records]) index).get? r.path = index.get? r.path := by
    rcases counts.free with there | apart
    · obtain ⟨placed, found⟩ := Option.isSome_iff_exists.1 there
      rw [get?_grown, found]
      rfl
    · exact get?_grown_of_forall_ne apart
  -- the first record of the path is in a group
  have kept : s ∈ Groups.kept false (PathTable.gather [records]).values := by
    rw [Groups.mem_kept_false, PathTable.values_gather, List.flatten_singleton,
      PathTable.mem_firsts_iff, path]
    exact ⟨first, assigned⟩
  have member := (grouped_perm (PathTable.gather [records]) index).mem_iff.2
    (List.mem_append_left _ kept)
  cases found : index.get? r.path with
  | none =>
    right
    have told : missing s ∈ placing (grown (PathTable.gather [records]) index) s := by
      rw [placing, path, look, found]
      exact List.mem_singleton_self _
    have same : missing s = missing r := by rw [missing, missing, named]
    rw [← same]
    exact List.mem_append_right _ (List.mem_flatMap.2 ⟨s, member, told⟩)
  | some placed =>
    left
    refine ⟨placed, rfl, record_mem_frame_iff.2 ?_⟩
    obtain ⟨⟨pack, group⟩, entry, inside⟩ := List.mem_flatMap.1 member
    refine ⟨_, List.mem_map_of_mem entry, List.mem_filterMap.2 ⟨s, inside, ?_⟩⟩
    dsimp only
    rw [path, look, found]
    rfl

end Log

end PackPlan
