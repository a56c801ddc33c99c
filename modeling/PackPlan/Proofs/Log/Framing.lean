import Mathlib.Data.List.Basic
import PackPlan.Proofs.Log.Blocks

/-!
# How a log is framed

The packs of a log are told apart by its separators alone: there is one between neighbours, also
where nothing of a pack is listed, and none after the last pack. What stands between two of them
are the lines of one pack, and before these, only after pack zero, the marker.

## Main definitions

* `Log.pieces` — what a log holds between its separators
* `Log.IsFramed` — a log has the separators, the lines and the marker that groups call for

## Main results

* `Log.count_separator_frame`, `Log.pieces_frame`, `Log.suffix_frame` — separators and blocks
* `Log.marker_mem_frame`, `Log.exists_marker_frame` — where the marker stands
* `Log.isFramed_frame` — the log of groups is framed
-/

namespace PackPlan

namespace Log

variable {find : Record → Option Record} {groups : Groups} {items : List Item}
  {blocks : List (Int × List String)} {lines : List String} {pack : Int}

/-! ### The blocks of a log -/

/-- The items after a separator without the marker that may follow on it. -/
def dropMarker : List Item → List Item
  | .marker :: items => items
  | items => items

/-- What a log holds between its separators, without a marker right after one. -/
def pieces (items : List Item) : List (List Item) :=
  match items.splitOn .separator with
  | [] => []
  | first :: rest => first :: rest.map dropMarker

theorem separator_notMem_map_record (lines : List String) :
    .separator ∉ lines.map Item.record := by
  simp

theorem marker_notMem_map_record (lines : List String) : .marker ∉ lines.map Item.record := by
  simp

theorem dropMarker_map_record (lines : List String) :
    dropMarker (lines.map .record) = lines.map .record := by
  cases lines <;> rfl

theorem frame_cons_of_ne_nil (some : blocks ≠ []) : frame ((pack, lines) :: blocks) =
    lines.map .record ++
      .separator :: (if pack = 0 then .marker :: frame blocks else frame blocks) :=
  frame.eq_3 pack lines blocks some

/-- There is a separator between neighbours, and nowhere else. -/
theorem count_separator_frame (some : blocks ≠ []) :
    (frame blocks).count .separator + 1 = blocks.length := by
  induction blocks using frame.induct with
  | case1 => exact absurd rfl some
  | case2 pack lines =>
    rw [frame, List.count_eq_zero.2 (separator_notMem_map_record lines)]
    rfl
  | case3 pack lines blocks more ih =>
    have rest : (if pack = 0 then Item.marker :: frame blocks else frame blocks).count .separator =
        (frame blocks).count .separator := by
      split
      · exact List.count_cons_of_ne (by decide)
      · rfl
    rw [frame_cons_of_ne_nil more, List.count_append, List.count_cons_self, rest,
      List.count_eq_zero.2 (separator_notMem_map_record lines), List.length_cons, ← ih more,
      Nat.zero_add]

theorem splitOn_append_separator (lines : List String) (items : List Item) :
    (lines.map Item.record ++ .separator :: items).splitOn .separator =
      lines.map .record :: items.splitOn .separator := by
  have cut := List.splitOnP_append_cons (p := (· == Item.separator)) (lines.map .record) items
    (beq_self_eq_true _)
  rw [← List.splitOn, ← List.splitOn,
    List.splitOn_eq_singleton (separator_notMem_map_record lines)] at cut
  exact cut

/-- The first piece of a log are the lines of its first block; all others may have a marker. -/
theorem exists_splitOn_frame (pack : Int) (lines : List String)
    (blocks : List (Int × List String)) :
    ∃ rest, (frame ((pack, lines) :: blocks)).splitOn .separator = lines.map .record :: rest ∧
      rest.map dropMarker = blocks.map fun b => b.2.map .record := by
  induction blocks generalizing pack lines with
  | nil => exact ⟨[], List.splitOn_eq_singleton (separator_notMem_map_record lines), rfl⟩
  | cons b blocks ih =>
    obtain ⟨rest, split, dropped⟩ := ih b.1 b.2
    rw [frame_cons_of_ne_nil (List.cons_ne_nil _ _), splitOn_append_separator]
    refine ⟨_, rfl, ?_⟩
    split
    · -- the marker becomes the first item of the next piece
      have marked : (Item.marker :: frame (b :: blocks)).splitOn .separator =
          (.marker :: b.2.map .record) :: rest := by
        rw [List.splitOn, List.splitOnP_cons_eq_if_modifyHead, if_neg (by decide), ← List.splitOn,
          split]
        rfl
      rw [marked, List.map_cons, dropped]
      rfl
    · rw [split, List.map_cons, dropMarker_map_record, dropped]
      rfl

/-- What stands between the separators of a log are the lines of its blocks. -/
theorem pieces_frame (some : blocks ≠ []) :
    pieces (frame blocks) = blocks.map fun b => b.2.map .record := by
  obtain ⟨⟨pack, lines⟩, blocks, rfl⟩ := List.exists_cons_of_ne_nil some
  obtain ⟨rest, split, dropped⟩ := exists_splitOn_frame pack lines blocks
  rw [pieces, split]
  exact congrArg (lines.map Item.record :: ·) dropped

/-! ### Packs in ascending order -/

/-- A log ends with the lines of the greatest pack. -/
theorem suffix_frame (ascending : (blocks.map Prod.fst).Pairwise (· < ·)) {b : Int × List String}
    (mem : b ∈ blocks) (greatest : ∀ b' ∈ blocks, b'.1 ≤ b.1) :
    b.2.map .record <:+ frame blocks := by
  induction blocks using frame.induct with
  | case1 => cases mem
  | case2 pack lines =>
    obtain rfl := List.mem_singleton.1 mem
    exact List.suffix_rfl
  | case3 pack lines blocks more ih =>
    rw [List.map_cons, List.pairwise_cons] at ascending
    rw [List.forall_mem_cons] at greatest
    rcases List.mem_cons.1 mem with rfl | later
    · -- the first pack is not the greatest
      obtain ⟨b', next⟩ := List.exists_mem_of_ne_nil blocks more
      exact absurd (ascending.1 _ (List.mem_map_of_mem next)) (greatest.2 b' next).not_gt
    · have rest : frame blocks <:+
          if pack = 0 then Item.marker :: frame blocks else frame blocks := by
        split
        · exact List.suffix_cons _ _
        · exact List.suffix_rfl
      rw [frame_cons_of_ne_nil more]
      exact ((ih ascending.2 later greatest.2).trans rest).trans
        ((List.suffix_cons _ _).trans (List.suffix_append _ _))

/-- A marker is there only where pack zero is not the last. -/
theorem marker_mem_frame (ascending : (blocks.map Prod.fst).Pairwise (· < ·))
    (mem : .marker ∈ frame blocks) :
    0 ∈ blocks.map Prod.fst ∧ ∃ pack ∈ blocks.map Prod.fst, 0 < pack := by
  induction blocks using frame.induct with
  | case1 => cases mem
  | case2 pack lines => exact absurd mem (marker_notMem_map_record lines)
  | case3 pack lines blocks more ih =>
    rw [List.map_cons, List.pairwise_cons] at ascending
    rw [frame_cons_of_ne_nil more] at mem
    by_cases zero : pack = 0
    · obtain ⟨b, next⟩ := List.exists_mem_of_ne_nil blocks more
      have key := List.mem_map_of_mem (f := Prod.fst) next
      exact ⟨zero ▸ List.mem_cons_self, b.1, List.mem_cons_of_mem _ key, zero ▸ ascending.1 _ key⟩
    · rw [if_neg zero, List.mem_append, List.mem_cons] at mem
      rcases mem with line | separator | later
      · exact absurd line (marker_notMem_map_record lines)
      · cases separator
      · obtain ⟨there, other, key, above⟩ := ih ascending.2 later
        exact ⟨List.mem_cons_of_mem _ there, other, List.mem_cons_of_mem _ key, above⟩

/-- Where pack zero is not the last, there is one marker, right after the separator that closes it:
as many separators stand before this one as there are packs below zero. -/
theorem exists_marker_frame (ascending : (blocks.map Prod.fst).Pairwise (· < ·))
    (zero : 0 ∈ blocks.map Prod.fst) (above : ∃ pack ∈ blocks.map Prod.fst, 0 < pack) :
    ∃ before after, frame blocks = before ++ .separator :: .marker :: after ∧
      before.count .separator = (blocks.map Prod.fst).countP (· < 0) ∧
      .marker ∉ before ∧ .marker ∉ after := by
  induction blocks using frame.induct with
  | case1 => cases zero
  | case2 pack lines =>
    obtain ⟨other, key, positive⟩ := above
    obtain rfl := List.mem_singleton.1 zero
    obtain rfl := List.mem_singleton.1 key
    exact absurd positive (lt_irrefl _)
  | case3 pack lines blocks more ih =>
    rw [List.map_cons, List.pairwise_cons] at ascending
    rw [frame_cons_of_ne_nil more, List.map_cons]
    have lines_count := List.count_eq_zero.2 (separator_notMem_map_record lines)
    by_cases here : pack = 0
    · -- no pack below zero comes before, and pack zero does not come again
      subst here
      have none : (blocks.map Prod.fst).countP (· < 0) = 0 :=
        List.countP_eq_zero.2 fun other key => by simpa using (ascending.1 other key).le
      refine ⟨lines.map .record, frame blocks, by rw [if_pos rfl], ?_,
        marker_notMem_map_record lines, fun mem => ?_⟩
      · rw [lines_count, List.countP_cons_of_neg (by simp), none]
      · exact absurd (ascending.1 0 (marker_mem_frame ascending.2 mem).1) (lt_irrefl _)
    · have later := (List.mem_cons.1 zero).resolve_left (Ne.symm here)
      have below := ascending.1 0 later
      obtain ⟨other, key, positive⟩ := above
      have key := (List.mem_cons.1 key).resolve_left fun same => by omega
      obtain ⟨before, after, cut, count, unmarked, unmarked'⟩ :=
        ih ascending.2 later ⟨other, key, positive⟩
      refine ⟨lines.map .record ++ .separator :: before, after, ?_, ?_, ?_, unmarked'⟩
      · rw [if_neg here, cut, List.append_assoc]
        rfl
      · rw [List.count_append, lines_count, List.count_cons_self, count,
          List.countP_cons_of_pos (by simpa using below), Nat.zero_add]
      · rw [List.mem_append, List.mem_cons, not_or, not_or]
        exact ⟨marker_notMem_map_record lines, by decide, unmarked⟩

/-! ### The log of groups -/

/-- A log has the frame that groups call for: a separator between neighbours of the packs in
ascending order and none after the greatest; between the separators the lines of the places that
are found for the records of one pack after the other; and the marker once, right after the
separator that closes pack zero, if there is one. -/
structure IsFramed (find : Record → Option Record) (groups : Groups) (items : List Item) :
    Prop where
  /-- There is one separator less than there are packs. -/
  separators : items.count .separator + 1 = groups.keys.length
  /-- What stands between them are the lines of the packs, from the least to the greatest. -/
  blocks : ∃ packs : List Int, packs.Perm groups.keys ∧ packs.Pairwise (· < ·) ∧
    pieces items = packs.map fun pack =>
      (blockOf find ((groups.get? pack).getD [])).map .record
  /-- The log ends with the lines of the greatest pack. -/
  ends : ∀ pack ∈ groups.keys, (∀ other ∈ groups.keys, other ≤ pack) →
    (blockOf find ((groups.get? pack).getD [])).map .record <:+ items
  /-- Where pack zero and a greater one are there, the marker stands once, right after the
  separator that closes pack zero. -/
  marked : 0 ∈ groups.keys → (∃ pack ∈ groups.keys, 0 < pack) →
    ∃ before after, items = before ++ .separator :: .marker :: after ∧
      before.count .separator = groups.keys.countP (· < 0) ∧
      .marker ∉ before ∧ .marker ∉ after
  /-- Otherwise there is no marker. -/
  unmarked : ¬(0 ∈ groups.keys ∧ ∃ pack ∈ groups.keys, 0 < pack) → .marker ∉ items

theorem isFramed_frame (find : Record → Option Record) (nonempty : groups.entries ≠ []) :
    IsFramed find groups (frame (blocksOf find groups)) := by
  have keys : ((blocksOf find groups).map Prod.fst).Perm groups.keys :=
    keys_blocksOf find groups ▸ (Groups.entries_ascending_perm groups).map Prod.fst
  have ascending : ((blocksOf find groups).map Prod.fst).Pairwise (· < ·) :=
    keys_blocksOf find groups ▸ Groups.pairwise_keys_ascending groups
  have length : (blocksOf find groups).length = groups.keys.length := by
    rw [← keys.length_eq, List.length_map]
  have some : blocksOf find groups ≠ [] := by
    rw [← List.length_pos_iff, length, Table.keys, List.length_map, List.length_pos_iff]
    exact nonempty
  have block : ∀ b ∈ blocksOf find groups, b.2 = blockOf find ((groups.get? b.1).getD []) := by
    intro b mem
    obtain ⟨group, found, lines⟩ := mem_blocksOf.1 mem
    rw [lines, found]
    rfl
  refine ⟨?separators, ⟨_, keys, ascending, ?blocks⟩, ?ends, ?marked, ?unmarked⟩
  case separators => rw [count_separator_frame some, length]
  case blocks =>
    rw [pieces_frame some, List.map_map]
    exact List.map_congr_left fun b mem => congrArg (List.map Item.record) (block b mem)
  case ends =>
    intro pack key greatest
    obtain ⟨b, mem, rfl⟩ := List.mem_map.1 (keys.mem_iff.2 key)
    rw [← block b mem]
    exact suffix_frame ascending mem fun b' mem' =>
      greatest _ (keys.mem_iff.1 (List.mem_map_of_mem mem'))
  case marked =>
    rintro zero ⟨pack, key, above⟩
    rw [← keys.countP_eq]
    exact exists_marker_frame ascending (keys.mem_iff.2 zero) ⟨pack, keys.mem_iff.2 key, above⟩
  case unmarked =>
    intro lacking mem
    obtain ⟨zero, pack, key, above⟩ := marker_mem_frame ascending mem
    exact lacking ⟨keys.mem_iff.1 zero, pack, keys.mem_iff.1 key, above⟩

end Log

end PackPlan
