import PackPlan.Proofs.Catalog.Rows

/-!
# Rows line by line

A row ends with its line, unless a field in quotation marks goes on past the end. Where none does,
the rows of a text are those of its lines, each read by itself. A line on which nothing stands
before its end has a row without fields, and every other line has a row with fields.

## Main definitions

* `Rows.ofLine?`, `Rows.ofEach` — the row of one line, and the rows of lines one by one
* `Rows.KeepsLines` — nothing in quotation marks goes on past the end of its line
* `Rows.isBlankLine` — a line on which nothing stands before its end

## Main results

* `Rows.ofLines_of_keepsLines` — rows are read line by line
* `Rows.ofLine?_eq_nil_iff` — the lines without a row are those that are blank
-/

namespace PackPlan

namespace Rows

variable {d d' : Draft} {c : Char} {line s : List Char} {lines : List (List Char)}

/-! ### Lines that end their rows -/

/-- What stands on a line before its end. -/
def beforeEnd (line : List Char) : List Char := line.takeWhile fun c => !isLineEnd c

/-- Whether the reader of a line is between quotation marks when it comes to the end. -/
def endsQuoted (line : List Char) : Bool :=
  ((beforeEnd line).foldlM Draft.feed {}).any (·.mode = .quoted)

/-- Nothing in quotation marks goes on past the end of its line. Where quotation marks are not
closed, the line has no end and is the last. -/
def KeepsLines (lines : List (List Char)) : Prop :=
  ∀ line ∈ lines, endsQuoted line = true → line.any isLineEnd = false

instance (lines : List (List Char)) : Decidable (KeepsLines lines) :=
  inferInstanceAs (Decidable (∀ line ∈ lines, _))

/-- The row of a line that is read by itself, unless a field of it is too long. -/
def ofLine? (line : List Char) : Option Row :=
  (line.foldlM Draft.feed {}).map fun d => d.complete?.getD (d.save .ended).row

/-- The rows of lines that are each read by itself, up to a line with a field that is too long. -/
def ofEach : List (List Char) → List Row
  | [] => []
  | line :: lines =>
    match ofLine? line with
    | none => []
    | some row => row :: ofEach lines

theorem ofEach_cons_of_none (long : ofLine? line = none) (lines : List (List Char)) :
    ofEach (line :: lines) = [] := by
  rw [ofEach, long]

theorem ofEach_cons_of_some {row : Row} (read : ofLine? line = some row)
    (lines : List (List Char)) : ofEach (line :: lines) = row :: ofEach lines := by
  rw [ofEach, read]

theorem any_isLineEnd_lineEnd (e : Text.LineEnd) : e.chars.any isLineEnd = true := by
  cases e <;> rfl

theorem beforeEnd_append (unbroken : ∀ c ∈ line, c ≠ '\n' ∧ c ≠ '\r') (e : Text.LineEnd) :
    beforeEnd (line ++ e.chars) = line := by
  have inside : ∀ c ∈ line, (!isLineEnd c) = true := fun c mem => by
    rw [isLineEnd_eq_false_iff.2 (unbroken c mem)]
    rfl
  rw [beforeEnd, List.takeWhile_append_of_pos inside]
  cases e <;> exact List.append_nil line

/-- A line with an end completes its row. -/
theorem complete?_ne_none_of_lineEnd {e : Text.LineEnd}
    (unbroken : ∀ c ∈ line, c ≠ '\n' ∧ c ≠ '\r')
    (keeps : endsQuoted (line ++ e.chars) = true → (line ++ e.chars).any isLineEnd = false)
    (read : (line ++ e.chars).foldlM Draft.feed {} = some d) : d.complete? ≠ none := by
  rw [List.foldlM_append, Option.bind_eq_bind, Option.bind_eq_some_iff] at read
  obtain ⟨mid, front, back⟩ := read
  have outside : mid.mode ≠ .quoted := by
    intro quoted
    have unclosed : endsQuoted (line ++ e.chars) = true := by
      rw [endsQuoted, beforeEnd_append unbroken, front]
      exact decide_eq_true quoted
    -- the line has no end if the quotation marks are not closed, but there is one
    have none := keeps unclosed
    rw [List.any_append, any_isLineEnd_lineEnd, Bool.or_true] at none
    cases none
  obtain rfl : mid.endLine = d := Option.some.inj ((foldlM_feed_lineEnd outside e).symm.trans back)
  rw [Draft.complete?, mode_endLine]
  exact Option.some_ne_none _

/-- Only between quotation marks a row is not complete. -/
theorem mode_of_complete?_eq_none (incomplete : d.complete? = none) : d.mode = .quoted := by
  rw [Draft.complete?] at incomplete
  split at incomplete <;> first | assumption | cases incomplete

/-- Rows are read line by line. -/
theorem ofLines_of_keepsLines (shape : Text.IsLines lines) (keeps : KeepsLines lines) :
    (ofLines true lines).1 = ofEach lines := by
  induction shape with
  | nil => rfl
  | @last line unbroken nonempty =>
    rw [ofLines, ofLinesFrom, ofEach, ofLine?]
    cases read : line.foldlM Draft.feed {} with
    | none => rfl
    | some d =>
      dsimp only
      cases complete : d.complete? with
      | none =>
        -- quotation marks that are not closed end with the text
        rw [ofLinesFrom, if_pos ⟨rfl, mode_of_complete?_eq_none complete⟩, Option.map_some,
          complete]
        rfl
      | some row =>
        rw [Option.map_some, complete]
        rfl
  | @cons line lines e unbroken rest ih =>
    rw [KeepsLines, List.forall_mem_cons] at keeps
    rw [ofLines, ofLinesFrom, ofEach, ofLine?]
    cases read : (line ++ e.chars).foldlM Draft.feed {} with
    | none => rfl
    | some d =>
      obtain ⟨row, complete⟩ :=
        Option.ne_none_iff_exists'.1 (complete?_ne_none_of_lineEnd unbroken keeps.1 read)
      dsimp only
      rw [complete, Option.map_some, complete, Option.getD_some, ← ih keeps.2]
      rfl

/-! ### Blank lines -/

/-- Whether nothing stands on the line before its end. -/
def isBlankLine (line : List Char) : Bool := (beforeEnd line).isEmpty

/-- The draft holds a field, or is about to. -/
structure Draft.HasField (d : Draft) : Prop where
  begun : d.mode ≠ .rowStart
  ended : d.mode = .ended → d.fields ≠ []

namespace Draft.HasField

theorem save (d : Draft) {mode : Mode} (begun : mode ≠ .rowStart) : (d.save mode).HasField :=
  ⟨begun, fun _ => List.cons_ne_nil _ _⟩

/-- A draft that is in the midst of a field holds one. -/
theorem of_mode {d : Draft} (begun : d.mode ≠ .rowStart) (within : d.mode ≠ .ended) : d.HasField :=
  ⟨begun, fun ended => absurd ended within⟩

theorem push {mode : Mode} (begun : mode ≠ .rowStart) (within : mode ≠ .ended)
    (pushed : d.push mode c = some d') : d'.HasField := by
  rw [Draft.push] at pushed
  split at pushed
  · cases pushed
  · cases pushed
    exact of_mode begun within

theorem beginField (fed : d.beginField c = some d') : d'.HasField := by
  rw [Draft.beginField] at fed
  split at fed
  · cases fed; exact save d (by decide)
  split at fed
  · cases fed; exact of_mode (by simp) (by simp)
  split at fed
  · cases fed; exact save d (by decide)
  · exact push (by decide) (by decide) fed

/-- A field once begun is not lost. -/
theorem feed (has : d.HasField) (fed : d.feed c = some d') : d'.HasField := by
  rw [Draft.feed] at fed
  split at fed
  · next start => exact absurd start has.begun
  · exact beginField fed
  · split at fed
    · cases fed; exact save d (by decide)
    split at fed
    · cases fed; exact save d (by decide)
    · exact push (by decide) (by decide) fed
  · split at fed
    · cases fed; exact of_mode (by simp) (by simp)
    · exact push (by decide) (by decide) fed
  · split at fed
    · exact push (by decide) (by decide) fed
    split at fed
    · cases fed; exact save d (by decide)
    split at fed
    · cases fed; exact save d (by decide)
    · exact push (by decide) (by decide) fed
  · cases fed; exact has

theorem foldlM_feed (has : d.HasField) (fed : s.foldlM Draft.feed d = some d') : d'.HasField := by
  induction s generalizing d with
  | nil => cases fed; exact has
  | cons c s ih =>
    rw [List.foldlM_cons, Option.bind_eq_bind, Option.bind_eq_some_iff] at fed
    obtain ⟨mid, first, rest⟩ := fed
    exact ih (has.feed first) rest

/-- The row of a draft that holds a field has one. -/
theorem row_ne_nil (has : d.HasField) : d.complete?.getD (d.save .ended).row ≠ [] := by
  have saved : (d.save .ended).row ≠ [] := by
    rw [Draft.row, Draft.save]
    simp
  rw [Draft.complete?]
  split
  · exact saved
  · exact saved
  · exact saved
  · exact saved
  · next start => exact absurd start has.begun
  · next ended =>
    rw [Option.getD_some, Draft.row, ne_eq, List.reverse_eq_nil_iff]
    exact has.ended ended

end Draft.HasField

/-- The lines without a row are those that are blank. -/
theorem ofLine?_eq_nil_iff : ofLine? line = some [] ↔ isBlankLine line = true := by
  cases line with
  | nil => exact ⟨fun _ => rfl, fun _ => rfl⟩
  | cons c s =>
    rw [ofLine?, isBlankLine, beforeEnd, List.takeWhile_cons, List.foldlM_cons]
    cases ends : isLineEnd c with
    | true =>
      have first : Draft.feed {} c = some { mode := .ended } := if_pos ends
      rw [first]
      refine iff_of_true ?_ rfl
      change Option.map _ (s.foldlM Draft.feed { mode := .ended }) = _
      rw [foldlM_feed_ended rfl]
      rfl
    | false =>
      refine iff_of_false ?_ Bool.false_ne_true
      intro none
      obtain ⟨d, read, row⟩ := Option.map_eq_some_iff.1 none
      obtain ⟨mid, first, rest⟩ := Option.bind_eq_some_iff.1 read
      rw [feed_rowStart ends] at first
      have has : mid.HasField := .feed (.of_mode (by simp) (by simp)) first
      exact (has.foldlM_feed rest).row_ne_nil row

end Rows

end PackPlan
