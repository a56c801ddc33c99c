import PackPlan.Proofs.Json.Numbers
import PackPlan.Proofs.Json.Strings

/-!
# Written values read back

A value that a text can hold exactly is read back from its written form: whatever follows
it, unless that goes on with a number, and at whatever depth it is written. The reader is
given as much fuel as the text has characters, and needs no more.

## Main definitions

* `Value.IsPlain` — the values that a text can hold exactly
* `Denotes` — the texts that are read as a value wherever they stand

## Main results

* `Value.IsPlain.exists_denotes` — the written form of a plain value denotes it
* `Value.IsPlain.exists_pretty` — a document with a plain value reads back
-/

namespace PackPlan.Json

variable {c : Char} {v : Value} {depth fuel : Nat}
  {text rest s : List Char} {parts : List (List Char)} {items : List Value}
  {members done : List (String × Value)} {m : String × Value}

/-- The values that a text can hold exactly: numbers are whole and not too long, and no name
occurs twice in an object. -/
inductive Value.IsPlain : Value → Prop
  | null : IsPlain .null
  | bool (b : Bool) : IsPlain (.bool b)
  | int {n : Int} (short : Numeral.isTooLong n = false) : IsPlain (.int n)
  | str (s : String) : IsPlain (.str s)
  | arr {items : List Value} (plain : ∀ v ∈ items, IsPlain v) : IsPlain (.arr items)
  | obj {members : List (String × Value)} (distinct : (members.map Prod.fst).Nodup)
    (plain : ∀ m ∈ members, IsPlain m.2) : IsPlain (.obj members)

/-! ### Texts of values -/

/-- The characters of which documents are made. -/
def isLayout (c : Char) : Bool := c = '\n' || isVisible c

/-- A text that is read as a value wherever it stands. It is not taken for a blank, nor for
the end of an array. -/
structure Denotes (text : List Char) (v : Value) : Prop where
  layout : ∀ c ∈ text, isLayout c = true
  front : ∃ c s, text = c :: s ∧ isBlank c = false ∧ c ≠ ']'
  reads : ∀ fuel rest, text.length ≤ fuel → EndsNumber rest →
    readValue fuel (text ++ rest) = .ok (v, rest)

theorem isLayout_of_isVisible (visible : isVisible c = true) : isLayout c = true := by
  rw [isLayout, visible, Bool.or_true]

theorem skipBlanks_of_not_blank (solid : isBlank c = false) : skipBlanks (c :: s) = c :: s := by
  rw [skipBlanks, List.dropWhile_cons_of_neg]
  rw [solid]
  simp

theorem mem_newLine (mem : c ∈ newLine depth) : c = '\n' ∨ c = ' ' :=
  (List.mem_cons.1 mem).imp_right List.eq_of_mem_replicate

theorem skipBlanks_newLine (depth : Nat) (s : List Char) :
    skipBlanks (newLine depth ++ s) = skipBlanks s := by
  have blank : ∀ c ∈ newLine depth, isBlank c = true := by
    intro c mem
    rcases mem_newLine mem with rfl | rfl <;> rfl
  rw [skipBlanks, skipBlanks, List.dropWhile_append_of_pos blank]

theorem endsNumber_newLine (depth : Nat) (s : List Char) : EndsNumber (newLine depth ++ s) :=
  EndsNumber.cons (by decide) (by decide) (by decide) (by decide)

theorem endsNumber_comma (s : List Char) : EndsNumber (',' :: s) :=
  EndsNumber.cons (by decide) (by decide) (by decide) (by decide)

theorem Denotes.skipBlanks (h : Denotes text v) (s : List Char) :
    skipBlanks (text ++ s) = text ++ s := by
  obtain ⟨c, t, rfl, solid, -⟩ := h.front
  exact skipBlanks_of_not_blank solid

/-! ### Scalars -/

/-- A text that is neither a string nor an array nor an object is a word or a number. -/
theorem readValue_scalar (string : c ≠ '"') (object : c ≠ '\x7b') (array : c ≠ '[') :
    readValue (fuel + 1) (c :: s) = readWordOrNumber (c :: s) := by
  rw [readValue.eq_def]
  dsimp only
  split
  · next same => exact absurd (List.cons.inj same).1 string
  · next same => exact absurd (List.cons.inj same).1 object
  · next same => exact absurd (List.cons.inj same).1 array
  · rfl

theorem denotes_scalar (visible : ∀ c ∈ text, isVisible c = true)
    (front : ∃ c s, text = c :: s ∧ isBlank c = false ∧ c ≠ ']' ∧ c ≠ '"' ∧ c ≠ '\x7b' ∧ c ≠ '[')
    (reads : ∀ rest, EndsNumber rest → readWordOrNumber (text ++ rest) = .ok (v, rest)) :
    Denotes text v := by
  obtain ⟨c, s, rfl, solid, bracket, string, object, array⟩ := front
  refine ⟨fun c mem => isLayout_of_isVisible (visible c mem), ⟨c, s, rfl, solid, bracket⟩, ?_⟩
  intro fuel rest enough ends
  obtain ⟨fuel, rfl⟩ := Nat.exists_eq_add_one.2 (Nat.lt_of_lt_of_le (Nat.succ_pos s.length) enough)
  exact (readValue_scalar string object array).trans (reads rest ends)

theorem denotes_null : Denotes "null".toList .null :=
  denotes_scalar (List.all_eq_true.1 rfl) ⟨'n', _, rfl, by decide⟩ fun _ _ => rfl

theorem denotes_bool (b : Bool) :
    Denotes (if b then "true".toList else "false".toList) (.bool b) := by
  cases b with
  | false => exact denotes_scalar (List.all_eq_true.1 rfl) ⟨'f', _, rfl, by decide⟩ fun _ _ => rfl
  | true => exact denotes_scalar (List.all_eq_true.1 rfl) ⟨'t', _, rfl, by decide⟩ fun _ _ => rfl

theorem isVisible_of_isDigit (digit : isDigit c = true) : isVisible c = true := by
  rw [isDigit, Bool.and_eq_true, decide_eq_true_eq, decide_eq_true_eq, Char.le_def, Char.le_def,
    UInt32.le_iff_toNat_le, UInt32.le_iff_toNat_le] at digit
  change 48 ≤ c.toNat ∧ c.toNat ≤ 57 at digit
  rw [isVisible, Bool.and_eq_true, decide_eq_true_eq, decide_eq_true_eq]
  omega

theorem denotes_decimalText {n : Int} (short : Numeral.isTooLong n = false) :
    Denotes (Numeral.decimalText n) (.int n) := by
  obtain ⟨c, s, front⟩ := List.exists_cons_of_ne_nil (decimalText_ne_nil n)
  have visible : ∀ c ∈ Numeral.decimalText n, isVisible c = true := by
    intro c mem
    rcases mem_decimalText mem with rfl | digit
    · rfl
    · exact isVisible_of_isDigit digit
  -- neither a minus nor a digit is taken for anything else that a value begins with
  have other : ∀ d, d ≠ '-' → isDigit d = false → c ≠ d := by
    rintro d minus nothing rfl
    rcases mem_decimalText (front ▸ List.mem_cons_self) with same | digit
    · exact minus same
    · exact absurd (nothing.symm.trans digit) (by simp)
  refine denotes_scalar visible ⟨c, s, front, ?_, ?_, ?_, ?_, ?_⟩ fun rest ends =>
    readWordOrNumber_decimalText short ends
  · rw [isBlank, decide_eq_false (other ' ' (by decide) rfl),
      decide_eq_false (other '\t' (by decide) rfl), decide_eq_false (other '\n' (by decide) rfl),
      decide_eq_false (other '\r' (by decide) rfl)]
    rfl
  all_goals exact other _ (by decide) rfl

theorem denotes_writeString (t : String) : Denotes (writeString t) (.str t) := by
  refine ⟨fun c mem => isLayout_of_isVisible (isVisible_of_mem_writeString mem),
    ⟨'"', _, rfl, by decide⟩, ?_⟩
  intro fuel rest enough ends
  obtain ⟨fuel, rfl⟩ := Nat.exists_eq_add_one.2 (Nat.lt_of_lt_of_le (Nat.succ_pos _) enough)
  rw [writeString, List.append_assoc, List.cons_append, List.singleton_append, readValue.eq_2,
    readString_writeString]
  rfl

/-! ### Blocks

Arrays and objects are written and read alike: part by part, each being added to those before
it, up to the closing bracket. -/

theorem exists_intercalate_eq_cons (sep : List Char) (c : Char) (s : List Char)
    (parts : List (List Char)) : ∃ t, sep.intercalate ((c :: s) :: parts) = c :: t := by
  cases parts with
  | nil => exact ⟨s, List.intercalate_singleton⟩
  | cons => exact ⟨_, by rw [List.intercalate_cons_cons, List.cons_append, List.cons_append]⟩

theorem block_append (depth : Nat) (opening closing : Char) (rest : List Char)
    (nonempty : parts ≠ []) :
    block depth opening closing parts ++ rest =
      opening :: (newLine (depth + 1) ++ ((',' :: newLine (depth + 1)).intercalate parts ++
        (newLine depth ++ closing :: rest))) := by
  obtain ⟨part, parts, rfl⟩ := List.exists_cons_of_ne_nil nonempty
  rw [block]
  · simp only [List.cons_append, List.append_assoc, List.nil_append]
  · simp

theorem length_intercalate_lt_block (depth : Nat) (opening closing : Char) (nonempty : parts ≠ []) :
    ((',' :: newLine (depth + 1)).intercalate parts).length + 1 <
      (block depth opening closing parts).length := by
  have whole := congrArg List.length
    (block_append depth opening closing [] nonempty)
  simp only [List.append_nil, List.length_cons, List.length_append, newLine] at whole ⊢
  omega

/-- A block is made of the characters of documents if its parts are. -/
theorem isLayout_of_mem_block {opening closing : Char} (first : isLayout opening = true)
    (last : isLayout closing = true) (inside : ∀ part ∈ parts, ∀ c ∈ part, isLayout c = true)
    (mem : c ∈ block depth opening closing parts) : isLayout c = true := by
  have line : ∀ depth, ∀ c ∈ newLine depth, isLayout c = true := by
    intro depth c mem
    rcases mem_newLine mem with rfl | rfl <;> rfl
  cases parts with
  | nil =>
    rw [block, List.mem_cons, List.mem_singleton] at mem
    rcases mem with rfl | rfl
    · exact first
    · exact last
  | cons part parts =>
    rw [← List.append_nil (block _ _ _ _), block_append _ _ _ _ (by simp)] at mem
    simp only [List.mem_cons, List.mem_append, List.not_mem_nil, or_false] at mem
    rcases mem with rfl | before | between | after | rfl
    · exact first
    · exact line _ c before
    · rcases Text.mem_join between with sep | inner
      · rcases List.mem_cons.1 sep with rfl | sep
        · rfl
        · exact line _ c sep
      · obtain ⟨part, member, here⟩ := List.mem_flatten.1 inner
        exact inside part member c here
    · exact line _ c after
    · exact last

theorem exists_block_eq_cons (depth : Nat) (opening closing : Char) (parts : List (List Char)) :
    ∃ s, block depth opening closing parts = opening :: s := by
  cases parts with
  | nil => exact ⟨[closing], rfl⟩
  | cons part parts =>
    exact ⟨_, by rw [← List.append_nil (block _ _ _ _), block_append _ _ _ _ (by simp)]⟩

theorem forall_mem_parts {α : Type} {R : List Char → α → Prop} {P : List Char → Prop} {xs : List α}
    (h : List.Forall₂ R parts xs) (each : ∀ part x, R part x → P part) :
    ∀ part ∈ parts, P part := by
  induction h with
  | nil => simp
  | @cons part x _ _ here _ ih =>
    intro p mem
    rcases List.mem_cons.1 mem with rfl | later
    · exact each p x here
    · exact ih p later

/-- How the parts of a block are read: what stands before them, one that others follow, the
last one, and a block without any. -/
structure ReadsBlock {α σ : Type} (read : Nat → σ → List Char → Except Stop (Value × List Char))
    (start : σ) (add : σ → α → σ) (finish : σ → Value) (opening closing : Char)
    (R : List Char → α → Prop) : Prop where
  marks : isLayout opening = true ∧ isLayout closing = true ∧ isBlank opening = false ∧
    isBlank closing = false ∧ opening ≠ ']'
  layout : ∀ part x, R part x → ∀ c ∈ part, isLayout c = true
  front : ∀ part x, R part x → ∃ c s, part = c :: s ∧ isBlank c = false ∧ c ≠ closing
  none : ∀ fuel rest, readValue (fuel + 1) (opening :: closing :: rest) = .ok (finish start, rest)
  first : ∀ fuel c s rest, skipBlanks rest = c :: s → c ≠ closing →
    readValue (fuel + 1) (opening :: rest) = read fuel start (c :: s)
  next : ∀ part x, R part x → ∀ fuel before rest s, part.length ≤ fuel → EndsNumber rest →
    skipBlanks rest = ',' :: s →
      read (fuel + 1) before (part ++ rest) = read fuel (add before x) (skipBlanks s)
  last : ∀ part x, R part x → ∀ fuel before rest s, part.length ≤ fuel → EndsNumber rest →
    skipBlanks rest = closing :: s →
      read (fuel + 1) before (part ++ rest) = .ok (finish (add before x), s)

namespace ReadsBlock

variable {α σ : Type} {read : Nat → σ → List Char → Except Stop (Value × List Char)}
  {start : σ} {add : σ → α → σ} {finish : σ → Value} {opening closing : Char}
  {R : List Char → α → Prop} {xs : List α}

/-- The parts of a block are read one after the other. -/
theorem read_parts (h : ReadsBlock read start add finish opening closing R) (before : σ)
    (depth depth' : Nat) (rest : List Char)
    (parts_xs : List.Forall₂ R parts xs) (nonempty : parts ≠ [])
    (enough : ((',' :: newLine depth).intercalate parts).length < fuel) :
    read fuel before
      ((',' :: newLine depth).intercalate parts ++ (newLine depth' ++ closing :: rest)) =
        .ok (finish (xs.foldl add before), rest) := by
  -- a part takes one unit of fuel besides its own characters: the separator pays for it
  induction parts_xs generalizing fuel before with
  | nil => exact absurd rfl nonempty
  | @cons part x parts xs here later ih =>
    obtain ⟨fuel, rfl⟩ := Nat.exists_eq_add_one.2 (Nat.zero_lt_of_lt enough)
    cases later with
    | nil =>
      rw [List.intercalate_singleton] at enough ⊢
      refine h.last part x here fuel before _ rest (Nat.lt_succ_iff.1 enough)
        (endsNumber_newLine _ _) ?_
      rw [skipBlanks_newLine, skipBlanks_of_not_blank h.marks.2.2.2.1]
    | @cons part' x' parts xs here' later =>
      rw [List.intercalate_cons_cons, List.length_append, List.length_append,
        List.length_cons] at enough
      -- the blanks before the next part end where it begins
      obtain ⟨c, s, rfl, solid, -⟩ := h.front part' x' here'
      obtain ⟨t, front⟩ := exists_intercalate_eq_cons (',' :: newLine depth) c s parts
      rw [List.intercalate_cons_cons, List.append_assoc, List.append_assoc, List.cons_append,
        h.next part x here fuel before _ _ (by omega) (endsNumber_comma _)
          (skipBlanks_of_not_blank rfl),
        skipBlanks_newLine, front, List.cons_append, skipBlanks_of_not_blank solid,
        ← List.cons_append, ← front]
      exact ih _ (by simp) (by omega)

/-- A block is read as what its parts make up. -/
theorem denotes (h : ReadsBlock read start add finish opening closing R) (depth : Nat)
    (parts_xs : List.Forall₂ R parts xs) :
    Denotes (block depth opening closing parts) (finish (xs.foldl add start)) := by
  obtain ⟨first, last, solid, -, bracket⟩ := h.marks
  refine ⟨fun c mem => ?layout, ?front, ?reads⟩
  case layout =>
    exact isLayout_of_mem_block first last (forall_mem_parts parts_xs h.layout) mem
  case front =>
    obtain ⟨s, front⟩ := exists_block_eq_cons depth opening closing parts
    exact ⟨opening, s, front, solid, bracket⟩
  case reads =>
    intro fuel rest enough _
    cases parts_xs with
    | nil =>
      obtain ⟨fuel, rfl⟩ := Nat.exists_eq_add_one.2 (Nat.lt_of_lt_of_le Nat.two_pos enough)
      exact h.none fuel rest
    | @cons part x parts xs here later =>
      -- the two brackets pay for the step into the parts
      have within := Nat.lt_of_lt_of_le (length_intercalate_lt_block depth opening closing
        (List.cons_ne_nil part parts)) enough
      obtain ⟨fuel, rfl⟩ := Nat.exists_eq_add_one.2 (Nat.zero_lt_of_lt within)
      have whole := h.read_parts start (depth + 1) depth rest
        (List.Forall₂.cons here later) (List.cons_ne_nil part parts) (Nat.lt_of_succ_lt_succ within)
      obtain ⟨c, s, rfl, solid, unclosed⟩ := h.front part x here
      obtain ⟨t, front⟩ := exists_intercalate_eq_cons (',' :: newLine (depth + 1)) c s parts
      rw [front, List.cons_append] at whole
      rw [block_append _ _ _ _ (List.cons_ne_nil _ parts), front, List.cons_append,
        h.first fuel c _ _ (by rw [skipBlanks_newLine, skipBlanks_of_not_blank solid]) unclosed,
        whole]

end ReadsBlock

/-! ### Arrays -/

theorem readValue_array (fuel : Nat) (s : List Char) :
    readValue (fuel + 1) ('[' :: s) = match skipBlanks s with
      | ']' :: rest => .ok (.arr [], rest)
      | rest => readItems fuel [] rest :=
  rfl

theorem readsBlock_items : ReadsBlock readItems [] (fun before v => v :: before)
    (fun before => .arr before.reverse) '[' ']' Denotes where
  marks := by decide
  layout _ _ denotes := denotes.layout
  front _ _ denotes := denotes.front
  none _ _ := rfl
  first fuel c s rest skipped other := by
    rw [readValue_array, skipped]
    split
    · next same => exact absurd (List.cons.inj same).1 other
    · rfl
  next text v denotes fuel before rest s enough ends skipped := by
    rw [readItems, denotes.reads fuel rest enough ends]
    simp only [bind, Except.bind, skipped]
  last text v denotes fuel before rest s enough ends skipped := by
    rw [readItems, denotes.reads fuel rest enough ends]
    simp only [bind, Except.bind, skipped]
    rfl

theorem denotes_array (h : List.Forall₂ Denotes parts items) :
    Denotes (block depth '[' ']' parts) (.arr items) := by
  have whole := readsBlock_items.denotes depth h
  rwa [List.foldl_flip_cons_eq_append', List.append_nil, List.reverse_reverse] at whole

/-! ### Objects -/

/-- A text that is read as a member of an object. -/
def DenotesMember (part : List Char) (m : String × Value) : Prop :=
  ∃ text, part = writeString m.1 ++ ':' :: ' ' :: text ∧ Denotes text m.2

theorem DenotesMember.layout {part : List Char} (h : DenotesMember part m) :
    ∀ c ∈ part, isLayout c = true := by
  obtain ⟨text, rfl, denotes⟩ := h
  intro c mem
  simp only [List.mem_append, List.mem_cons] at mem
  rcases mem with name | rfl | rfl | value
  · exact isLayout_of_isVisible (isVisible_of_mem_writeString name)
  · rfl
  · rfl
  · exact denotes.layout c value

/-- A member is read, and the reader goes on with what follows it. -/
theorem readMembers_append {part : List Char} (h : DenotesMember part m)
    (enough : part.length ≤ fuel) (ends : EndsNumber rest) :
    readMembers (fuel + 1) done (part ++ rest) = match skipBlanks rest with
      | '\x7d' :: rest => .ok (.obj (putMember done m.1 m.2), rest)
      | ',' :: rest => readMembers fuel (putMember done m.1 m.2) (skipBlanks rest)
      | rest => .error (.malformed .comma rest) := by
  obtain ⟨text, rfl, denotes⟩ := h
  have within : text.length ≤ fuel := by
    rw [List.length_append, List.length_cons, List.length_cons] at enough
    omega
  have colon : ∀ s, skipBlanks (':' :: s) = ':' :: s := fun s => skipBlanks_of_not_blank rfl
  have space : ∀ s, skipBlanks (' ' :: s) = skipBlanks s := fun s => rfl
  rw [writeString, List.append_assoc, List.append_assoc, List.cons_append, List.singleton_append,
    readMembers.eq_2, readString_writeString]
  simp only [List.cons_append, bind, Except.bind, colon, space, denotes.skipBlanks,
    denotes.reads fuel rest within ends]
  rfl

theorem readValue_object (fuel : Nat) (s : List Char) :
    readValue (fuel + 1) ('\x7b' :: s) = match skipBlanks s with
      | '\x7d' :: rest => .ok (.obj [], rest)
      | rest => readMembers fuel [] rest :=
  rfl

theorem readsBlock_members : ReadsBlock readMembers [] (fun before m => putMember before m.1 m.2)
    .obj '\x7b' '\x7d' DenotesMember where
  marks := by decide
  layout _ _ denotes := denotes.layout
  front part m denotes := by
    obtain ⟨text, rfl, -⟩ := denotes
    exact ⟨'"', _, rfl, by decide⟩
  none _ _ := rfl
  first fuel c s rest skipped other := by
    rw [readValue_object, skipped]
    split
    · next same => exact absurd (List.cons.inj same).1 other
    · rfl
  next part m denotes fuel before rest s enough ends skipped := by
    rw [readMembers_append denotes enough ends]
    simp only [skipped]
  last part m denotes fuel before rest s enough ends skipped := by
    rw [readMembers_append denotes enough ends]
    simp only [skipped]

/-- Members that have distinct names are added one after the other. -/
theorem foldl_putMember (done : List (String × Value))
    (distinct : ((done ++ members).map Prod.fst).Nodup) :
    members.foldl (fun before m => putMember before m.1 m.2) done = done ++ members := by
  induction members generalizing done with
  | nil => rw [List.foldl_nil, List.append_nil]
  | cons m members ih =>
    have fresh : done.any (·.1 = m.1) = false := by
      rw [List.map_append, List.map_cons, List.nodup_append] at distinct
      rw [List.any_eq_false]
      intro before mem same
      exact distinct.2.2 before.1 (List.mem_map_of_mem mem) m.1 (by simp)
        (of_decide_eq_true same)
    rw [List.foldl_cons, putMember, fresh, if_neg (by simp), ih, List.append_assoc]
    · rfl
    · rwa [List.append_assoc]

theorem denotes_object (h : List.Forall₂ DenotesMember parts members)
    (distinct : (members.map Prod.fst).Nodup) :
    Denotes (block depth '\x7b' '\x7d' parts) (.obj members) := by
  have whole := readsBlock_members.denotes depth h
  rwa [foldl_putMember [] distinct, List.nil_append] at whole

/-! ### Parts

Items and members are both written part by part, and all are written if each of them is. -/

/-- The written form of a member of an object. -/
def writeMember (depth : Nat) (m : String × Value) : Option (List Char) :=
  (m.2.write depth).map fun text => writeString m.1 ++ ':' :: ' ' :: text

theorem writeItems_eq_mapM (depth : Nat) (items : List Value) :
    writeItems depth items = items.mapM (·.write depth) := by
  induction items with
  | nil => rfl
  | cons v items ih => rw [writeItems, ih, List.mapM_cons]

theorem writeMembers_eq_mapM (depth : Nat) (members : List (String × Value)) :
    writeMembers depth members = members.mapM (writeMember depth) := by
  induction members with
  | nil => rfl
  | cons m members ih =>
    rw [writeMembers, ih, List.mapM_cons, writeMember]
    cases m.2.write depth <;> rfl

section Parts

variable {α : Type} {write : α → Option (List Char)} {x : α} {xs : List α}

theorem exists_mapM_eq_some {R : List Char → α → Prop}
    (each : ∀ x ∈ xs, ∃ part, write x = some part ∧ R part x) :
    ∃ parts, xs.mapM write = some parts ∧ List.Forall₂ R parts xs := by
  induction xs with
  | nil => exact ⟨[], rfl, .nil⟩
  | cons x xs ih =>
    rw [List.forall_mem_cons] at each
    obtain ⟨part, written, here⟩ := each.1
    obtain ⟨parts, rest, later⟩ := ih each.2
    exact ⟨part :: parts, by rw [List.mapM_cons, written, rest]; rfl, .cons here later⟩

theorem exists_of_mapM_eq_some (written : xs.mapM write = some parts) (mem : x ∈ xs) :
    ∃ part, write x = some part := by
  induction xs generalizing parts with
  | nil => exact absurd mem List.not_mem_nil
  | cons y xs ih =>
    simp only [List.mapM_cons, Option.bind_eq_bind, Option.bind_eq_some_iff] at written
    obtain ⟨part, here, later, rest, -⟩ := written
    rcases List.mem_cons.1 mem with rfl | member
    · exact ⟨part, here⟩
    · exact ih rest member

end Parts

/-- Where an array can be written, so can each of its items. -/
theorem exists_write_of_mem_items (written : writeItems depth items = some parts)
    (mem : v ∈ items) : ∃ text, v.write depth = some text :=
  exists_of_mapM_eq_some ((writeItems_eq_mapM depth items).symm.trans written) mem

/-- Where an object can be written, so can the value of each of its members. -/
theorem exists_write_of_mem_members (written : writeMembers depth members = some parts)
    (mem : m ∈ members) : ∃ text, m.2.write depth = some text := by
  rw [writeMembers_eq_mapM] at written
  obtain ⟨part, member⟩ := exists_of_mapM_eq_some written mem
  obtain ⟨text, value, -⟩ := Option.map_eq_some_iff.1 member
  exact ⟨text, value⟩

/-! ### Values -/

/-- The written form of a plain value denotes it. -/
theorem Value.IsPlain.exists_denotes (plain : v.IsPlain) (depth : Nat) :
    ∃ text, v.write depth = some text ∧ Denotes text v := by
  induction plain generalizing depth with
  | null => exact ⟨_, rfl, denotes_null⟩
  | bool b => exact ⟨_, rfl, denotes_bool b⟩
  | @int n short =>
    refine ⟨Numeral.decimalText n, ?_, denotes_decimalText short⟩
    rw [Value.write, Numeral.decimal?_eq_some short, Option.map_some, String.toList_ofList]
  | str s => exact ⟨_, rfl, denotes_writeString s⟩
  | arr _ ih =>
    obtain ⟨parts, written, denote⟩ := exists_mapM_eq_some fun v mem => ih v mem (depth + 1)
    exact ⟨_, by rw [Value.write, writeItems_eq_mapM, written]; rfl, denotes_array denote⟩
  | @obj members distinct _ ih =>
    have each : ∀ m ∈ members, ∃ part, writeMember (depth + 1) m = some part ∧
        DenotesMember part m := fun m mem => by
      obtain ⟨text, value, denotes⟩ := ih m mem (depth + 1)
      exact ⟨_, by rw [writeMember, value]; rfl, text, rfl, denotes⟩
    obtain ⟨parts, written, denote⟩ := exists_mapM_eq_some each
    exact ⟨_, by rw [Value.write, writeMembers_eq_mapM, written]; rfl,
      denotes_object denote distinct⟩

/-- A text that denotes a value, with a line end, is a document with this value. -/
theorem Denotes.read (h : Denotes text v) : read (String.ofList text ++ "\n") = .ok v := by
  have chars : (String.ofList text ++ "\n").toList = text ++ ['\n'] := by
    rw [String.toList_append, String.toList_ofList]
    rfl
  have mark : ∀ s, text ++ ['\n'] = '\ufeff' :: s → False := by
    intro s same
    obtain ⟨c, t, rfl, -⟩ := h.front
    have visible := h.layout c (by simp)
    rw [(List.cons.inj same).1] at visible
    exact absurd visible (by decide)
  have whole := h.reads (2 * (text ++ ['\n']).length + 2) ['\n']
    (by rw [List.length_append]; omega) (endsNumber_newLine 0 [])
  rw [Json.read, chars, readDocument, h.skipBlanks, whole]
  · rfl
  · exact mark

/-- A document with a plain value reads back. -/
theorem Value.IsPlain.exists_pretty (plain : v.IsPlain) :
    ∃ text, v.pretty = some text ∧ Json.read (text ++ "\n") = .ok v ∧
      ∀ c ∈ (text ++ "\n").toList, isLayout c = true := by
  obtain ⟨text, written, denotes⟩ := plain.exists_denotes 0
  refine ⟨String.ofList text, by rw [pretty, written, Option.map_some], denotes.read, ?_⟩
  intro c mem
  rw [String.toList_append, String.toList_ofList, List.mem_append] at mem
  rcases mem with inside | last
  · exact denotes.layout c inside
  · rw [List.mem_singleton.1 last]
    rfl

theorem Value.IsPlain.read_of_pretty (plain : v.IsPlain) {document : String}
    (written : v.pretty = some document) : Json.read (document ++ "\n") = .ok v := by
  obtain ⟨document', written', read, -⟩ := plain.exists_pretty
  obtain rfl := Option.some.inj (written.symm.trans written')
  exact read

end PackPlan.Json
