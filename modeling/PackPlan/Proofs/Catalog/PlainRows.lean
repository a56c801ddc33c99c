import PackPlan.Proofs.AssetPath
import PackPlan.Proofs.Catalog.Rows

/-!
# Rows without quotation marks

Rows whose fields hold neither tabs nor line ends can be laid out without quotation marks, one on
each line, and are then read as they are. A field must not begin with a quotation mark, as that
would be taken for the beginning of a quoted field; further on in the field it stands for itself.
A row needs two fields at least, as a line without a tab may be blank.

## Main definitions

* `Rows.Fits` — a field that can be laid out as it is
* `Rows.IsPlainRow` — a row that can
* `Rows.layRow`, `Rows.layRows` — rows laid out

## Main results

* `Rows.exists_complete_of_layRow` — what is read of one line
* `Rows.ofText_layRows` — rows that are laid out are read as they are
-/

namespace PackPlan.Rows

variable {d : Draft} {field : String} {fields : List String} {row : Row} {rows : List Row}
  {ending : List Char} {lines : List (List Char)}

/-- A field that can be laid out as it is. -/
structure Fits (field : String) : Prop where
  plain : IsPlainField field.toList
  short : field.length ≤ Fault.maxField

/-- A row that can be laid out as it is. -/
structure IsPlainRow (row : Row) : Prop where
  two : 2 ≤ row.length
  fits : ∀ field ∈ row, Fits field

/-- The fields of a row, with tabs between them. -/
def layRow (row : Row) : List Char := Text.join ['\t'] (row.map String.toList)

/-- Rows on a line each. The last line may be left without its end. -/
def layRows (e : Text.LineEnd) (closed : Bool) (rows : List Row) : List Char :=
  Text.join e.chars (rows.map layRow) ++ if closed then e.chars else []

theorem layRow_cons_cons (field next : String) (row : Row) :
    layRow (field :: next :: row) = field.toList ++ '\t' :: layRow (next :: row) :=
  Text.join_cons_cons _ _ _ _

theorem layRow_singleton (field : String) : layRow [field] = field.toList := by
  rw [layRow, List.map_cons, List.map_nil, Text.join, List.intercalate_singleton]

theorem layRows_singleton (e : Text.LineEnd) (closed : Bool) (row : Row) :
    layRows e closed [row] = layRow row ++ if closed then e.chars else [] := by
  rw [layRows, List.map_cons, List.map_nil, Text.join, List.intercalate_singleton]

theorem layRows_cons_cons (e : Text.LineEnd) (closed : Bool) (row next : Row) (rows : List Row) :
    layRows e closed (row :: next :: rows) =
      layRow row ++ e.chars ++ layRows e closed (next :: rows) := by
  rw [layRows, List.map_cons, List.map_cons, Text.join, List.intercalate_cons_cons,
    List.append_assoc, ← Text.join, ← List.map_cons, ← layRows]

/-- Rows begin with the first of them. -/
theorem exists_layRows_cons (e : Text.LineEnd) (closed : Bool) (row : Row) (rows : List Row) :
    ∃ later, layRows e closed (row :: rows) = layRow row ++ later := by
  cases rows with
  | nil => exact ⟨_, layRows_singleton e closed row⟩
  | cons next rows => exact ⟨_, (layRows_cons_cons e closed row next rows).trans
      (List.append_assoc _ _ _)⟩

/-! ### One field -/

/-- A draft that has read a field after others, but not yet its end. -/
structure Draft.Holds (d : Draft) (field : String) (fields : List String) : Prop where
  mode : d.mode = .fieldStart ∨ d.mode = .plain
  save : ∀ mode, d.save mode = { mode, fields := field :: fields }

/-- A field that fits is read up to its end. -/
theorem exists_holds_of_fits (fits : Fits field) (fields : List String) :
    ∃ d, field.toList.foldlM Draft.feed { mode := .fieldStart, fields } = some d ∧
      d.Holds field fields := by
  have text : String.ofList field.toList = field := String.ofList_toList
  -- an empty field leaves the draft as it is, still before its field
  by_cases empty : field.toList = []
  · rw [empty] at text ⊢
    exact ⟨_, rfl, .inl rfl, fun mode => by rw [← text]; rfl⟩
  · refine ⟨_, (foldlM_feed_field fits.plain empty fields).trans (if_neg ?_), .inr rfl, ?_⟩
    · rw [String.length_toList, Nat.not_lt]
      exact fits.short
    · intro mode
      rw [Draft.save, List.reverse_reverse, text]

namespace Draft.Holds

/-- A tab ends a field. -/
theorem feed_tab (holds : d.Holds field fields) :
    d.feed '\t' = some { mode := .fieldStart, fields := field :: fields } := by
  rw [← holds.save, feed]
  rcases holds.mode with mode | mode <;> rw [mode] <;> rfl

/-- The row is complete at a line end, and where there is none. -/
theorem exists_complete (holds : d.Holds field fields)
    (ends : ending = [] ∨ ∃ e : Text.LineEnd, ending = e.chars) :
    ∃ d', ending.foldlM feed d = some d' ∧ d'.complete? = some (field :: fields).reverse := by
  rcases ends with rfl | ⟨e, rfl⟩
  · refine ⟨d, rfl, ?_⟩
    rw [complete?]
    rcases holds.mode with mode | mode <;> rw [mode] <;> dsimp only <;> rw [holds.save] <;> rfl
  · have outside : d.mode ≠ .quoted := by
      rcases holds.mode with mode | mode <;> rw [mode] <;> decide
    refine ⟨_, foldlM_feed_lineEnd outside e, ?_⟩
    rw [endLine]
    rcases holds.mode with mode | mode <;> rw [mode] <;> dsimp only <;> rw [holds.save] <;> rfl

end Draft.Holds

/-! ### One row -/

/-- The fields of a row are read one after the other. -/
theorem exists_complete_of_fields (fits : ∀ field ∈ row, Fits field) (nonempty : row ≠ [])
    (ends : ending = [] ∨ ∃ e : Text.LineEnd, ending = e.chars) (fields : List String) :
    ∃ d, (layRow row ++ ending).foldlM Draft.feed { mode := .fieldStart, fields } = some d ∧
      d.complete? = some (fields.reverse ++ row) := by
  induction row generalizing fields with
  | nil => exact absurd rfl nonempty
  | cons field row ih =>
    -- the last field ends with the line, the others at a tab
    rw [List.forall_mem_cons] at fits
    obtain ⟨d, read, holds⟩ := exists_holds_of_fits fits.1 fields
    cases row with
    | nil =>
      obtain ⟨d', ended, complete⟩ := holds.exists_complete ends
      refine ⟨d', ?_, complete.trans (by rw [List.reverse_cons])⟩
      rw [layRow_singleton, List.foldlM_append, read]
      exact ended
    | cons next row =>
      obtain ⟨d', later, complete⟩ := ih fits.2 (List.cons_ne_nil _ _) (field :: fields)
      refine ⟨d', ?_, complete.trans (by rw [List.reverse_cons, List.append_assoc]; rfl)⟩
      rw [layRow_cons_cons, List.append_assoc, List.foldlM_append, read]
      change ('\t' :: (layRow (next :: row) ++ ending)).foldlM Draft.feed d = _
      rw [List.foldlM_cons, holds.feed_tab]
      exact later

theorem not_isLineEnd_of_mem_layRow (plain : IsPlainRow row) {c : Char} (mem : c ∈ layRow row) :
    isLineEnd c = false := by
  rcases Text.mem_join mem with tab | inside
  · rw [List.mem_singleton.1 tab]
    rfl
  · obtain ⟨chars, member, here⟩ := List.mem_flatten.1 inside
    obtain ⟨field, there, rfl⟩ := List.mem_map.1 member
    exact ((plain.fits field there).plain.inside c here).1

/-- A row with several fields is no blank line. -/
theorem layRow_ne_nil (plain : IsPlainRow row) : layRow row ≠ [] := by
  have two := plain.two
  match row with
  | [] | [_] => simp at two
  | field :: next :: row =>
    rw [layRow_cons_cons]
    simp

/-- What is read of one line. -/
theorem exists_complete_of_layRow (plain : IsPlainRow row)
    (ends : ending = [] ∨ ∃ e : Text.LineEnd, ending = e.chars) :
    ∃ d, (layRow row ++ ending).foldlM Draft.feed {} = some d ∧ d.complete? = some row := by
  have nonempty : row ≠ [] := by
    rintro rfl
    exact layRow_ne_nil plain rfl
  obtain ⟨d, read, complete⟩ := exists_complete_of_fields plain.fits nonempty ends []
  refine ⟨d, ?_, complete⟩
  -- at its first character the beginning of a row is the beginning of a field
  obtain ⟨c, rest, first⟩ := List.exists_cons_of_ne_nil (layRow_ne_nil plain)
  have inside : isLineEnd c = false :=
    not_isLineEnd_of_mem_layRow plain (first ▸ List.mem_cons_self)
  rw [first, List.cons_append, List.foldlM_cons] at read ⊢
  rw [feed_rowStart inside]
  exact read

theorem ofLines_cons (plain : IsPlainRow row)
    (ends : ending = [] ∨ ∃ e : Text.LineEnd, ending = e.chars) :
    ofLines true ((layRow row ++ ending) :: lines) =
      (row :: (ofLines true lines).1, (ofLines true lines).2) := by
  obtain ⟨d, read, complete⟩ := exists_complete_of_layRow plain ends
  rw [ofLines, ofLinesFrom, read]
  dsimp only
  rw [complete]
  rfl

/-! ### All rows -/

/-- Rows that are laid out without quotation marks are read as they are. -/
theorem ofText_layRows (e : Text.LineEnd) (closed : Bool) (nonempty : rows ≠ [])
    (plain : ∀ row ∈ rows, IsPlainRow row) : ofText (layRows e closed rows) = (rows, false) := by
  have unbroken : ∀ row ∈ rows, ∀ c ∈ layRow row, c ≠ '\n' ∧ c ≠ '\r' := fun row mem c inside =>
    isLineEnd_eq_false_iff.1 (not_isLineEnd_of_mem_layRow (plain row mem) inside)
  induction rows with
  | nil => exact absurd rfl nonempty
  | cons row rows ih =>
    rw [List.forall_mem_cons] at plain unbroken
    cases rows with
    | nil =>
      rw [layRows_singleton, ofText]
      cases closed with
      | true =>
        rw [if_pos rfl, ← List.append_nil (layRow row ++ e.chars),
          Text.allLines_append unbroken.1 (fun _ => by simp), ofLines_cons plain.1 (.inr ⟨e, rfl⟩)]
        rfl
      | false =>
        rw [if_neg Bool.false_ne_true, List.append_nil,
          Text.allLines_of_unbroken unbroken.1 (layRow_ne_nil plain.1),
          ← List.append_nil (layRow row), ofLines_cons plain.1 (.inl rfl)]
        rfl
    | cons next rows =>
      -- a line does not begin with a line feed that belongs to the end of the line before
      have apart : ∀ c ∈ (layRows e closed (next :: rows)).head?, c ≠ '\n' := by
        intro c head
        obtain ⟨later, front⟩ := exists_layRows_cons e closed next rows
        rw [front, List.head?_append_of_ne_nil _ (layRow_ne_nil (plain.2 next List.mem_cons_self))]
          at head
        exact (unbroken.2 next List.mem_cons_self c (List.mem_of_mem_head? head)).1
      rw [layRows_cons_cons, ofText, Text.allLines_append unbroken.1 fun _ => apart,
        ofLines_cons plain.1 (.inr ⟨e, rfl⟩), ← ofText,
        ih (List.cons_ne_nil _ _) plain.2 unbroken.2]

end PackPlan.Rows
