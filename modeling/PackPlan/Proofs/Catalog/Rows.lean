import PackPlan.Catalog.Rows
import PackPlan.Proofs.Text.Lines
import PackPlan.Proofs.Text.Utf8

/-!
# How rows are read

The text of a file is read block by block, and is the same wherever the blocks cut it. A row is read
character by character, and each character makes at most one field longer by one. So a field that
is too long needs a file that is longer still. A file that is nothing but one such field, with no
mark in it that could end the field, has no rows at all.

## Main definitions

* `Rows.ofText` — the rows of a text
* `Rows.Draft.endLine` — a draft whose line has ended
* `Rows.IsPlainField` — a text that needs no quotation marks to be a field

## Main results

* `Rows.ofBytes_encode` — the rows of a file are those of its text
* `Rows.fault_of_ofBytes` — what stops the reader, and that only in a file with more bytes than
  a field may have characters a field is too long
* `Rows.foldlM_feed_lineEnd` — how the end of a line is read
* `Rows.foldlM_feed_field` — how a field is read
* `Rows.ofBytes_of_plain` — a file that is one field too long
-/

namespace PackPlan

variable {c : Char} {s : List Char} {bytes : Bytes}

/-! ### Text from bytes -/

namespace Utf8

/-- Each character takes a byte at least, and so does what is left unfinished. -/
theorem length_readFrom (skip offset : Nat) (done : List Char) (bytes : Bytes) :
    (readFrom skip offset done bytes).text.length +
      (readFrom skip offset done bytes).unfinished.length ≤ done.length + bytes.length := by
  induction bytes generalizing skip offset done with
  | nil => simp [readFrom]
  | cons lead rest ih =>
    cases skip with
    | succ skip =>
      -- a byte of a character that was read at its first byte
      have later := ih skip (offset + 1) done
      rw [readFrom, List.length_cons]
      omega
    | zero =>
      rw [readFrom]
      split
      · next c width _ =>
        have later := ih (width - 1) (offset + 1) (c :: done)
        rw [List.length_cons] at later
        rw [List.length_cons]
        omega
      · simp
      · simp

theorem length_read (bytes : Bytes) :
    (read bytes).text.length + (read bytes).unfinished.length ≤ bytes.length := by
  have whole := length_readFrom 0 0 [] bytes
  rw [List.length_nil, Nat.zero_add] at whole
  exact whole

end Utf8

namespace Rows

/-- Text that is read block by block is not longer than the blocks and what goes before them. -/
theorem length_textOfBlocks (unfinished : Bytes) (parts : List Bytes) :
    (textOfBlocks unfinished parts).1.length ≤ unfinished.length + parts.flatten.length := by
  induction parts generalizing unfinished with
  | nil => simp [textOfBlocks]
  | cons block parts ih =>
    rw [textOfBlocks]
    dsimp only
    split
    · simp
    · -- what a block leaves unfinished goes before the next
      have here := Utf8.length_read (unfinished ++ block)
      have later := ih (Utf8.read (unfinished ++ block)).unfinished
      rw [List.length_append] at here
      rw [List.length_append, List.flatten_cons, List.length_append]
      omega

theorem flatten_blocks (bytes : Bytes) : (blocks bytes).flatten = bytes := by
  induction bytes using blocks.induct with
  | case1 => rw [blocks]; rfl
  | case2 bytes nonempty ih =>
    rw [blocks, if_neg nonempty, List.flatten_cons, ih, List.take_append_drop]

/-- The parts of an encoded text are read as this text, wherever it is cut. What one part leaves
unfinished goes on in the next. -/
theorem textOfBlocks_of_append {parts : List Bytes} {unfinished : Bytes}
    (whole : unfinished ++ parts.flatten = Utf8.encode s) (short : Utf8.FallsShort unfinished s) :
    textOfBlocks unfinished parts = (s, none) := by
  induction parts generalizing unfinished s with
  | nil =>
    rw [List.flatten_nil, List.append_nil] at whole
    subst whole
    obtain rfl := short.eq_nil
    rfl
  | cons block parts ih =>
    rw [List.flatten_cons, ← List.append_assoc] at whole
    obtain ⟨front, back, left, rfl, reading, cut, falls⟩ := Utf8.exists_read_of_append whole
    rw [textOfBlocks, reading]
    dsimp only
    rw [ih cut falls]

/-- A text is read from its bytes, wherever the blocks cut it. -/
theorem textOfBlocks_encode (s : List Char) :
    textOfBlocks [] (blocks (Utf8.encode s)) = (s, none) :=
  textOfBlocks_of_append (flatten_blocks _) (.nil s)

/-- The rows of the lines of a text, and whether a field was too long. -/
def ofText (s : List Char) : List Row × Bool := ofLines true (Text.allLines s)

theorem ofBytes_encode (s : List Char) : ofBytes (Utf8.encode s) =
    ((ofText s).1, if (ofText s).2 then some .longField else none) := by
  rw [ofBytes, textOfBlocks_encode]
  rfl

theorem isLineEnd_eq_false_iff : isLineEnd c = false ↔ c ≠ '\n' ∧ c ≠ '\r' := by
  simp [isLineEnd]

/-! ### Drafts -/

variable {d d' : Draft}

theorem length_of_push {mode : Mode} (h : d.push mode c = some d') : d'.length = d.length + 1 := by
  rw [Draft.push] at h
  split at h
  · cases h
  · cases h; rfl

theorem le_length_of_push_eq_none {mode : Mode} (h : d.push mode c = none) :
    Fault.maxField ≤ d.length := by
  rw [Draft.push] at h
  split at h
  · next full => exact full
  · cases h

theorem length_of_beginField (h : d.beginField c = some d') : d'.length ≤ d.length + 1 := by
  rw [Draft.beginField] at h
  split at h
  · cases h; exact Nat.zero_le _
  split at h
  · cases h; exact Nat.le_succ _
  split at h
  · cases h; exact Nat.zero_le _
  · exact Nat.le_of_eq (length_of_push h)

theorem le_length_of_beginField_eq_none (h : d.beginField c = none) :
    Fault.maxField ≤ d.length := by
  rw [Draft.beginField] at h
  split at h
  · cases h
  split at h
  · cases h
  split at h
  · cases h
  · exact le_length_of_push_eq_none h

/-- A character makes a field longer by one at most. -/
theorem length_of_feed (h : d.feed c = some d') : d'.length ≤ d.length + 1 := by
  rw [Draft.feed] at h
  split at h
  · split at h
    · cases h; exact Nat.le_succ _
    · exact length_of_beginField h
  · exact length_of_beginField h
  · split at h
    · cases h; exact Nat.zero_le _
    split at h
    · cases h; exact Nat.zero_le _
    · exact Nat.le_of_eq (length_of_push h)
  · split at h
    · cases h; exact Nat.le_succ _
    · exact Nat.le_of_eq (length_of_push h)
  · split at h
    · exact Nat.le_of_eq (length_of_push h)
    split at h
    · cases h; exact Nat.zero_le _
    split at h
    · cases h; exact Nat.zero_le _
    · exact Nat.le_of_eq (length_of_push h)
  · cases h; exact Nat.le_succ _

/-- Only a full field takes no more characters. -/
theorem le_length_of_feed_eq_none (h : d.feed c = none) : Fault.maxField ≤ d.length := by
  rw [Draft.feed] at h
  split at h
  · split at h
    · cases h
    · exact le_length_of_beginField_eq_none h
  · exact le_length_of_beginField_eq_none h
  · split at h
    · cases h
    split at h
    · cases h
    · exact le_length_of_push_eq_none h
  · split at h
    · cases h
    · exact le_length_of_push_eq_none h
  · split at h
    · exact le_length_of_push_eq_none h
    split at h
    · cases h
    split at h
    · cases h
    · exact le_length_of_push_eq_none h
  · cases h

theorem length_of_foldlM_feed (h : s.foldlM Draft.feed d = some d') :
    d'.length ≤ d.length + s.length := by
  induction s generalizing d with
  | nil => cases h; exact Nat.le_add_right _ _
  | cons c s ih =>
    rw [List.foldlM_cons, Option.bind_eq_bind, Option.bind_eq_some_iff] at h
    obtain ⟨mid, first, rest⟩ := h
    have here := length_of_feed first
    have later := ih rest
    rw [List.length_cons]
    omega

theorem lt_length_of_foldlM_feed_eq_none (h : s.foldlM Draft.feed d = none) :
    Fault.maxField < d.length + s.length := by
  induction s generalizing d with
  | nil => cases h
  | cons c s ih =>
    rw [List.foldlM_cons, Option.bind_eq_bind, Option.bind_eq_none_iff] at h
    rw [List.length_cons]
    cases first : d.feed c with
    | none =>
      have full := le_length_of_feed_eq_none first
      omega
    | some mid =>
      have here := length_of_feed first
      have later := ih (h mid first)
      omega

/-! ### Rows -/

theorem lt_length_of_ofLinesFrom {all : Bool} {lines : List (List Char)}
    (long : (ofLinesFrom all d lines).2 = true) :
    Fault.maxField < d.length + lines.flatten.length := by
  induction lines generalizing d with
  | nil => cases long
  | cons line lines ih =>
    rw [List.flatten_cons, List.length_append]
    rw [ofLinesFrom] at long
    split at long
    · next full =>
      have here := lt_length_of_foldlM_feed_eq_none full
      omega
    · next d' fed =>
      have here := length_of_foldlM_feed fed
      split at long
      · have later := ih long
        omega
      · -- the next row begins with an empty field
        have later : Fault.maxField < 0 + lines.flatten.length := ih long
        omega

/-- What stops the reader is that a file is no text, or that a field is too long. Only a file
with more bytes than a field may have characters has such a field. -/
theorem fault_of_ofBytes {fault : Fault} (stopped : (ofBytes bytes).2 = some fault) :
    (∃ cause, fault = .text cause) ∨ fault = .longField ∧ Fault.maxField < bytes.length := by
  have text := length_textOfBlocks [] (blocks bytes)
  rw [flatten_blocks, List.length_nil, Nat.zero_add] at text
  -- the lines that are read as rows are lines of the text
  have within : ∀ {all lines}, (ofLines all lines).2 = true →
      lines.flatten.length ≤ (textOfBlocks [] (blocks bytes)).1.length →
        Fault.maxField < bytes.length := by
    intro all lines flag short
    have row : Fault.maxField < 0 + lines.flatten.length := lt_length_of_ofLinesFrom flag
    omega
  rw [ofBytes] at stopped
  dsimp only at stopped
  cases unreadable : (textOfBlocks [] (blocks bytes)).2 with
  | none =>
    rw [unreadable] at stopped
    change (if (ofText (textOfBlocks [] (blocks bytes)).1).2 then some Fault.longField else none) =
      some fault at stopped
    split at stopped
    · next flag =>
      cases stopped
      exact .inr ⟨rfl, within flag (Text.flatten_allLines _ ▸ Nat.le_refl _)⟩
    · cases stopped
  | some cause =>
    rw [unreadable] at stopped
    dsimp only at stopped
    split at stopped
    · next flag =>
      have parts := congrArg List.length (Text.flatten_linesOf (textOfBlocks [] (blocks bytes)).1)
      rw [List.length_append] at parts
      cases stopped
      exact .inr ⟨rfl, within flag (by omega)⟩
    · cases stopped
      exact .inl ⟨cause, rfl⟩

/-! ### Line ends -/

/-- The draft when its line has ended, which between quotation marks it does not. -/
def Draft.endLine (d : Draft) : Draft :=
  match d.mode with
  | .rowStart | .ended => { d with mode := .ended }
  | .fieldStart | .plain | .quoted | .quoteSeen => d.save .ended

theorem mode_endLine (d : Draft) : d.endLine.mode = .ended := by
  rw [Draft.endLine]
  split <;> rfl

/-- A line end ends the row, but for one between quotation marks. -/
theorem feed_lineEnd (outside : d.mode ≠ .quoted) (ends : isLineEnd c = true) :
    d.feed c = some d.endLine := by
  have quote : c ≠ '"' := by
    rintro rfl
    cases ends
  have tab : c ≠ '\t' := by
    rintro rfl
    cases ends
  rw [Draft.feed, Draft.endLine]
  cases mode : d.mode with
  | rowStart => exact if_pos ends
  | fieldStart => exact if_pos ends
  | plain => exact if_pos ends
  | quoted => exact absurd mode outside
  | quoteSeen =>
    dsimp only
    rw [if_neg quote, if_neg tab, if_pos ends]
  | ended =>
    dsimp only
    rw [← mode]

/-- After its end nothing on a line counts. -/
theorem foldlM_feed_ended (ended : d.mode = .ended) (s : List Char) :
    s.foldlM Draft.feed d = some d := by
  induction s with
  | nil => rfl
  | cons c s ih =>
    have stays : d.feed c = some d := by rw [Draft.feed, ended]
    rw [List.foldlM_cons, stays]
    exact ih

theorem foldlM_feed_lineEnd (outside : d.mode ≠ .quoted) (e : Text.LineEnd) :
    e.chars.foldlM Draft.feed d = some d.endLine := by
  cases e with
  | feed => rw [Text.LineEnd.chars, List.foldlM_cons, feed_lineEnd outside rfl]; rfl
  | carriage => rw [Text.LineEnd.chars, List.foldlM_cons, feed_lineEnd outside rfl]; rfl
  | both =>
    rw [Text.LineEnd.chars, List.foldlM_cons, feed_lineEnd outside rfl]
    exact foldlM_feed_ended (mode_endLine d) _

/-! ### One field -/

/-- The characters that stand for themselves in a field. -/
def isPlain (c : Char) : Bool := !isLineEnd c && c ≠ '\t' && c ≠ '"'

/-- A text that needs no quotation marks to be a field. -/
structure IsPlainField (s : List Char) : Prop where
  inside : ∀ c ∈ s, isLineEnd c = false ∧ c ≠ '\t'
  unquoted : s.head? ≠ some '"'

/-- A field that is being read takes all characters that do not end it, as far as they fit. -/
theorem foldlM_feed_plain (inside : ∀ c ∈ s, isLineEnd c = false ∧ c ≠ '\t')
    (mode : d.mode = .plain) (room : d.length ≤ Fault.maxField) :
    s.foldlM Draft.feed d = if Fault.maxField < d.length + s.length then none else
      some { d with field := s.reverse ++ d.field, length := d.length + s.length } := by
  induction s generalizing d with
  | nil => exact (if_neg (Nat.not_lt.2 room)).symm
  | cons c s ih =>
    obtain ⟨here, tab⟩ := inside c (by simp)
    rw [List.foldlM_cons, Draft.feed, mode]
    dsimp only
    rw [here, if_neg Bool.false_ne_true, if_neg tab, Draft.push]
    -- the field is full, or it takes the character and stays plain
    split
    · next full => exact (if_pos (by rw [List.length_cons]; omega)).symm
    · next space =>
      refine (ih (fun d mem => inside d (List.mem_cons_of_mem c mem)) rfl ?_).trans ?_
      · dsimp only
        omega
      · have count : d.length + 1 + s.length = d.length + (c :: s).length := by
          rw [List.length_cons]
          omega
        dsimp only
        rw [count, List.reverse_cons, List.append_assoc, List.singleton_append]

/-- A field is read from its first character on, unless it is too long. -/
theorem foldlM_feed_field (plain : IsPlainField s) (nonempty : s ≠ []) (fields : List String) :
    s.foldlM Draft.feed { mode := .fieldStart, fields } = if Fault.maxField < s.length then none
      else some { mode := .plain, fields, field := s.reverse, length := s.length } := by
  obtain ⟨c, rest, rfl⟩ := List.exists_cons_of_ne_nil nonempty
  obtain ⟨inside, tab⟩ := plain.inside c (by simp)
  have quote : c ≠ '"' := fun same => plain.unquoted (congrArg some same)
  have begins : Draft.feed { mode := .fieldStart, fields } c =
      some { mode := .plain, fields, field := [c], length := 1 } := by
    rw [Draft.feed]
    dsimp only
    rw [Draft.beginField, inside, if_neg Bool.false_ne_true, if_neg quote, if_neg tab]
    rfl
  rw [List.foldlM_cons, begins]
  refine (foldlM_feed_plain (fun d mem => plain.inside d (List.mem_cons_of_mem c mem)) rfl
    (Nat.succ_le_of_lt (by decide))).trans ?_
  rw [List.length_cons, List.reverse_cons, Nat.add_comm]

/-- The first character of a line begins a field, unless it ends the line. -/
theorem feed_rowStart (inside : isLineEnd c = false) :
    Draft.feed {} c = Draft.feed { mode := .fieldStart } c := by
  rw [Draft.feed, Draft.feed]
  dsimp only
  rw [inside, if_neg Bool.false_ne_true, Draft.beginField, Draft.beginField]
  rfl

theorem isPlainField_of_isPlain (plain : ∀ c ∈ s, isPlain c = true) : IsPlainField s := by
  have parts : ∀ c ∈ s, (isLineEnd c = false ∧ c ≠ '\t') ∧ c ≠ '"' := by
    intro c mem
    have here := plain c mem
    simpa only [isPlain, Bool.and_eq_true, Bool.not_eq_true', decide_eq_true_eq] using here
  exact ⟨fun c mem => (parts c mem).1, fun quote =>
    (parts '"' (List.mem_of_mem_head? quote)).2 rfl⟩

/-- A file that is one field, and too long for one, has no rows. -/
theorem ofBytes_of_plain (plain : ∀ c ∈ s, isPlain c = true) (long : Fault.maxField < s.length) :
    ofBytes (Utf8.encode s) = ([], some .longField) := by
  have field := isPlainField_of_isPlain plain
  have unbroken : ∀ c ∈ s, c ≠ '\n' ∧ c ≠ '\r' := fun c mem =>
    isLineEnd_eq_false_iff.1 (field.inside c mem).1
  have nonempty : s ≠ [] := List.ne_nil_of_length_pos (Nat.zero_lt_of_lt long)
  have fed : s.foldlM Draft.feed {} = none := by
    have whole := (foldlM_feed_field field nonempty []).trans (if_pos long)
    obtain ⟨c, rest, rfl⟩ := List.exists_cons_of_ne_nil nonempty
    rw [List.foldlM_cons] at whole ⊢
    rw [feed_rowStart (field.inside c (by simp)).1]
    exact whole
  rw [ofBytes_encode, ofText, Text.allLines_of_unbroken unbroken nonempty, ofLines, ofLinesFrom,
    fed]
  rfl

end Rows

end PackPlan
