import PackPlan.Proofs.Files.Places
import PackPlan.Proofs.Json.Numbers
import PackPlan.Proofs.Log.Blocks

/-!
# Reading a log back

A consumer cuts a log into lines, and the line of a record into fields at its tabs. The names in a
log are written as they are, so that this gives back what was written exactly if no name has a tab
or a line end in it.

## Main definitions

* `Log.IsRecordLine` — a line of five fields, the second and third of which are numbers
* `Log.ReadsBack` — the lines of a text are those of the items of a log

## Main results

* `Text.length_splitAt`, `Text.splitAt_lines` — the lines of a text
* `Log.isRecordLine_lineOf_iff` — when the line of a record has five fields
* `Log.readsBack_text_iff` — when a log is read back
-/

namespace PackPlan

namespace Text

theorem length_splitAt (sep : Char) (s : List Char) :
    (splitAt sep s).length = s.count sep + 1 := by
  induction s with
  | nil => rfl
  | cons c s ih =>
    obtain ⟨piece, pieces, split⟩ := List.exists_cons_of_ne_nil (splitAt_ne_nil sep s)
    rw [splitAt_cons, List.count_cons]
    by_cases here : c = sep
    · rw [if_pos here, List.length_cons, ih, if_pos (beq_iff_eq.2 here)]
    · rw [if_neg here, if_neg (by simpa using here), Nat.add_zero, ← ih, split]
      rfl

/-- Lines that each have their end are read back, with nothing after the last. -/
theorem splitAt_lines {sep : Char} {lines : List (List Char)} (plain : ∀ l ∈ lines, sep ∉ l) :
    splitAt sep (lines.flatMap (· ++ [sep])) = lines ++ [[]] := by
  induction lines with
  | nil => rfl
  | cons l lines ih =>
    rw [List.forall_mem_cons] at plain
    rw [List.flatMap_cons, List.append_assoc, List.singleton_append, splitAt_append_sep,
      Numeral.splitAt_of_not_mem plain.1, ih plain.2, List.singleton_append, List.cons_append]

/-- Where there is one piece for each line and one more, no line has an end within it. -/
theorem forall_not_mem_of_length_splitAt {sep : Char} {lines : List (List Char)}
    (h : (splitAt sep (lines.flatMap (· ++ [sep]))).length = lines.length + 1) :
    ∀ l ∈ lines, sep ∉ l := by
  have ends : (lines.flatMap (· ++ [sep])).count sep =
      (lines.map (·.count sep)).sum + lines.length := by
    clear h
    induction lines with
    | nil => rfl
    | cons l lines ih =>
      rw [List.flatMap_cons, List.count_append, List.count_append, ih, List.map_cons,
        List.sum_cons, List.length_cons, List.count_singleton_self]
      omega
  rw [length_splitAt, ends] at h
  have none : (lines.map (·.count sep)).sum = 0 := by omega
  rw [List.sum_eq_zero_iff_forall_eq_nat] at none
  intro l mem
  exact List.count_eq_zero.1 (none _ (List.mem_map_of_mem mem))

end Text

namespace Log

variable {items : List Item} {name : String} {offset size : Int}

/-! ### The line of a record -/

/-- A line of five fields with tabs between them, the second and third of which are numbers. -/
def IsRecordLine (line : List Char) : Prop :=
  ∃ first last last' : List Char, ∃ m n : Int, Text.splitAt '\t' line =
    [first, Numeral.decimalText m, Numeral.decimalText n, last, last']

theorem not_mem_decimalText {c : Char} (sign : c ≠ '-') (digit : Json.isDigit c = false)
    (n : Int) : c ∉ Numeral.decimalText n := by
  intro mem
  rcases Json.mem_decimalText mem with same | isDigit
  · exact sign same
  · rw [digit] at isDigit
    cases isDigit

theorem toList_lineOf (name : String) (offset size : Int) : (lineOf name offset size).toList =
    name.toList ++ '\t' :: (Numeral.decimalText offset ++ '\t' :: (Numeral.decimalText size ++
      '\t' :: ("i-read ".toList ++ '\t' :: "000000000000000000".toList))) := by
  simp [lineOf, digits, toString, String.toList_append]

theorem splitAt_lineOf (name : String) (offset size : Int) :
    Text.splitAt '\t' (lineOf name offset size).toList =
      Text.splitAt '\t' name.toList ++ [Numeral.decimalText offset, Numeral.decimalText size,
        "i-read ".toList, "000000000000000000".toList] := by
  have plain := not_mem_decimalText (c := '\t') (by decide) (by decide)
  rw [toList_lineOf, Text.splitAt_append_sep, Text.splitAt_append_sep, Text.splitAt_append_sep,
    Text.splitAt_append_sep, Numeral.splitAt_of_not_mem (plain offset),
    Numeral.splitAt_of_not_mem (plain size),
    Numeral.splitAt_of_not_mem (s := "i-read ".toList) (by decide),
    Numeral.splitAt_of_not_mem (s := "000000000000000000".toList) (by decide)]
  rfl

/-- The line of a record has five fields exactly if its name has no tab in it. -/
theorem isRecordLine_lineOf_iff :
    IsRecordLine (lineOf name offset size).toList ↔ '\t' ∉ name.toList := by
  rw [IsRecordLine, splitAt_lineOf]
  constructor
  · rintro ⟨first, last, last', m, n, same⟩
    have length := congrArg List.length same
    rw [List.length_append, Text.length_splitAt] at length
    simp only [List.length_cons, List.length_nil] at length
    exact List.count_eq_zero.1 (by omega)
  · intro plain
    rw [Numeral.splitAt_of_not_mem plain]
    exact ⟨_, _, _, offset, size, rfl⟩

theorem newline_mem_lineOf_iff : '\n' ∈ (lineOf name offset size).toList ↔ '\n' ∈ name.toList := by
  have plain := not_mem_decimalText (c := '\n') (by decide) (by decide)
  rw [toList_lineOf]
  simp [plain]

/-! ### The lines of a log -/

/-- The line of an item, without its end. -/
def Item.line : Item → List Char
  | .record line => line.toList
  | .separator => "----------".toList
  | .marker => "||||||||||  1000".toList

theorem toList_text (items : List Item) :
    (text items).toList = (items.map Item.line).flatMap (· ++ ['\n']) := by
  have each : ∀ item : Item, item.text.toList = item.line ++ ['\n'] := by
    rintro (line | _ | _) <;> unfold Item.text Item.line
    · rw [String.toList_append]
      rfl
    · decide
    · decide
  rw [text, String.toList_join, List.flatMap_map, List.flatMap_map]
  exact List.flatMap_congr fun item _ => each item

/-- A line tells which item it is. -/
structure Tells (line : List Char) (item : Item) : Prop where
  record : IsRecordLine line ↔ item.isRecord = true
  separator : line = Item.line .separator ↔ item = .separator
  marker : line = Item.line .marker ↔ item = .marker

/-- The lines of a text tell the items of a log, one line each, and nothing comes after them. -/
def ReadsBack (items : List Item) (text : String) : Prop :=
  ∃ lines, Text.splitAt '\n' text.toList = lines ++ [[]] ∧
    List.Forall₂ (fun item line => Tells line item) items lines

/-- The line of an item tells which it is, if that of a record has five fields. -/
theorem tells_line {item : Item}
    (record : ∀ text, item = .record text → IsRecordLine text.toList) : Tells item.line item := by
  have framing : ∀ fixed : List Char, '\t' ∉ fixed → ¬IsRecordLine fixed := by
    rintro fixed plain ⟨first, last, last', m, n, split⟩
    rw [Numeral.splitAt_of_not_mem plain] at split
    cases split
  have separator := framing (Item.line .separator) (by decide)
  have marker := framing (Item.line .marker) (by decide)
  rcases item with text | _ | _
  · have own := record text rfl
    refine ⟨iff_of_true own rfl, iff_of_false (fun same => separator ?_) nofun,
      iff_of_false (fun same => marker ?_) nofun⟩
    · exact same ▸ own
    · exact same ▸ own
  · exact ⟨iff_of_false separator nofun, iff_of_true rfl rfl, iff_of_false (by decide) nofun⟩
  · exact ⟨iff_of_false marker nofun, iff_of_false (by decide) nofun, iff_of_true rfl rfl⟩

/-- A log is read back exactly if the line of each record has five fields and no line end in it. -/
theorem readsBack_text_iff : ReadsBack items (text items) ↔
    ∀ text, .record text ∈ items → IsRecordLine text.toList ∧ '\n' ∉ text.toList := by
  constructor
  · rintro ⟨lines, split, tell⟩ record mem
    -- as many lines as items leave no line end to a record
    have count : (Text.splitAt '\n' ((items.map Item.line).flatMap (· ++ ['\n']))).length =
        (items.map Item.line).length + 1 := by
      rw [← toList_text, split, List.length_append, ← tell.length_eq, List.length_map]
      rfl
    have plain := Text.forall_not_mem_of_length_splitAt count
    rw [toList_text, Text.splitAt_lines plain] at split
    rw [← List.append_cancel_right split, List.forall₂_map_right_iff, List.forall₂_same] at tell
    exact ⟨(tell _ mem).record.2 rfl, plain _ (List.mem_map_of_mem (f := Item.line) mem)⟩
  · intro each
    refine ⟨items.map Item.line, ?_, ?_⟩
    · rw [toList_text, Text.splitAt_lines]
      intro line mem
      obtain ⟨item, member, rfl⟩ := List.mem_map.1 mem
      rcases item with text | _ | _
      · exact (each text member).2
      · decide
      · decide
    · rw [List.forall₂_map_right_iff, List.forall₂_same]
      exact fun item member => tells_line fun text same => (each text (same ▸ member)).1

end Log

end PackPlan
