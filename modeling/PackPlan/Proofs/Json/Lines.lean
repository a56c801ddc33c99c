import PackPlan.Proofs.Json.Fuel
import PackPlan.Proofs.Json.Tokens

/-!
# The line on which the reader stops

Whole lines either can be the beginning of a document, and then the reader goes on to the lines
after them whatever these are, or the reader never gets beyond them. So the line that the reader
names for a malformed text is the first one with which the text is no beginning of a document, or
the last one, if the text ends before the document does.

## Main definitions

* `Closes` — what a reader begins can be brought to an end
* `Fixed`, `FixesAll`, `Judged` — what the lines at the front of a text make of the rest, for one
  reader, for all of them and for documents
* `Begins` — a text can be the beginning of a document
* `StopsOnLine` — the line of a text with which it is no longer the beginning of a document

## Main results

* `fixesAll` — values, members and items
* `judged` — documents
* `suffix_iff_begins` — whether the reader gets beyond whole lines
* `stopsOnLine_iff_of_read` — the line that the reader names
-/

namespace PackPlan.Json

variable {α : Type} {c closing : Char} {v whole : Value} {p q s : List Char}
  {read parts value : List Char → Except Stop (Value × List Char)}

/-- What a reader begins can be brought to an end, and then is not read beyond it. -/
def Closes (read : List Char → Except Stop (Value × List Char)) : Prop :=
  ∃ c more v, isBlank c = false ∧ ∀ tail, read (c :: (more ++ tail)) = .ok (v, tail)

/-- What the lines at the front of a text make of the rest: it is settled by them, or it begins with
them, and then can be brought to an end, and is read beyond them in any case. -/
inductive Fixed (p : List Char) (read : List Char → Except Stop (Value × List Char)) : Prop
  | settled (h : Settled p read)
  | opened (stays : ∀ z, StaysIn z (read z)) (closes : Closes read)

theorem Settled.mono {read : List Char → Except Stop (α × List Char)} (h : Settled q read)
    (within : q <:+ p) : Settled p read := by
  cases h with
  | value a t inside shorter reads =>
    exact .value a t (inside.trans within) (shorter.trans_le within.length_le) reads
  | malformed cause t inside some reads => exact .malformed cause t (inside.trans within) some reads
  | number cause reads => exact .number cause reads

theorem Fixed.mono (h : Fixed q read) (within : q <:+ p) : Fixed p read := by
  cases h with
  | settled h => exact .settled (h.mono within)
  | opened stays closes => exact .opened stays closes

theorem Settled.map {β : Type} {read : List Char → Except Stop (α × List Char)} (f : α → β)
    (h : Settled p read) : Settled p fun z => read z >>= fun x => .ok (f x.1, x.2) := by
  cases h with
  | value a q within shorter reads =>
    exact .value (f a) q within shorter fun z => by rw [reads]; rfl
  | malformed cause q within inside reads =>
    exact .malformed cause q within inside fun z => by rw [reads]; rfl
  | number cause reads => exact .number cause fun z => by rw [reads]; rfl

/-! ### Blanks -/

theorem skipBlanks_append (front : skipBlanks p = c :: q) (z : List Char) :
    skipBlanks (p ++ z) = c :: (q ++ z) := by
  rw [skipBlanks, List.dropWhile_append, if_neg]
  · exact congrArg (· ++ z) front
  · rw [← skipBlanks, front]
    simp

theorem skipBlanks_append_of_nil (blank : skipBlanks p = []) (z : List Char) :
    skipBlanks (p ++ z) = skipBlanks z := by
  rw [skipBlanks, List.dropWhile_append, if_pos]
  · rfl
  · rw [← skipBlanks, blank]
    rfl

theorem fixed_skipBlanks (stays : ∀ t, StaysIn t (read t)) (closes : Closes read)
    (fixed : ∀ q, q <:+ p → q ≠ [] → Fixed q fun z => read (q ++ z)) :
    Fixed p fun z => read (skipBlanks (p ++ z)) := by
  cases front : skipBlanks p with
  | nil =>
    simp only [skipBlanks_append_of_nil front]
    obtain ⟨c, more, v, solid, ends⟩ := closes
    refine .opened (fun z => (stays _).mono (skipBlanks_suffix z)) ⟨c, more, v, solid, ?_⟩
    simpa only [skipBlanks_of_not_blank solid] using ends
  | cons c q =>
    simp only [skipBlanks_append front]
    have within : c :: q <:+ p := front ▸ skipBlanks_suffix p
    exact (fixed (c :: q) within (List.cons_ne_nil c q)).mono within

/-! ### Blocks -/

theorem inBlock_closing (solid : isBlank closing = false) (s : List Char) :
    inBlock closing whole parts (closing :: s) = .ok (whole, s) := by
  rw [inBlock, skipBlanks_of_not_blank solid]
  exact if_pos rfl

theorem afterPart_closing (solid : isBlank closing = false) (s : List Char) :
    afterPart closing whole parts (closing :: s) = .ok (whole, s) := by
  rw [afterPart, skipBlanks_of_not_blank solid]
  exact if_pos rfl

theorem afterName_colon (s : List Char) : afterName value (':' :: s) = value (skipBlanks s) := by
  rw [afterName, skipBlanks_of_not_blank rfl]
  exact if_pos rfl

/-- A block that has been opened is settled by the lines after its opening mark, or can be closed
after them. -/
theorem fixed_inBlock (stays : ∀ t, StaysIn t (parts t)) (solid : isBlank closing = false)
    (fixed : ∀ q, q <:+ p → q ≠ [] → Fixed q fun z => parts (q ++ z)) :
    Fixed p fun z => inBlock closing whole parts (p ++ z) := by
  cases front : skipBlanks p with
  | nil =>
    have blank (z) : inBlock closing whole parts (p ++ z) = inBlock closing whole parts z := by
      rw [inBlock, inBlock, skipBlanks_append_of_nil front]
    simp only [blank]
    refine .opened (fun z => staysIn_inBlock fun t within => (stays t).mono within) ?_
    exact ⟨closing, [], whole, solid, inBlock_closing solid⟩
  | cons c q =>
    have within : c :: q <:+ p := front ▸ skipBlanks_suffix p
    simp only [inBlock, skipBlanks_append front]
    by_cases closed : c = closing
    · simp only [if_pos closed]
      refine .settled (.value whole q ?_ (length_lt_of_skipBlanks front) fun _ => rfl)
      exact suffix_of_skipBlanks front
    · simp only [if_neg closed]
      exact (fixed (c :: q) within (List.cons_ne_nil c q)).mono within

/-- After a part a block can be closed, or another part begins after the comma. -/
theorem fixed_afterPart (stays : ∀ t, StaysIn t (parts t)) (closes : Closes parts)
    (solid : isBlank closing = false)
    (fixed : ∀ q, q <:+ p → q ≠ [] → Fixed q fun z => parts (q ++ z)) :
    Fixed p fun z => afterPart closing whole parts (p ++ z) := by
  cases front : skipBlanks p with
  | nil =>
    have blank (z) : afterPart closing whole parts (p ++ z) = afterPart closing whole parts z := by
      rw [afterPart, afterPart, skipBlanks_append_of_nil front]
    simp only [blank]
    refine .opened (fun z => staysIn_afterPart fun t within => (stays t).mono within) ?_
    exact ⟨closing, [], whole, solid, afterPart_closing solid⟩
  | cons c q =>
    have within : q <:+ p := suffix_of_skipBlanks front
    simp only [afterPart, skipBlanks_append front]
    by_cases closed : c = closing
    · simp only [if_pos closed]
      exact .settled (.value whole q within (length_lt_of_skipBlanks front) fun _ => rfl)
    simp only [if_neg closed]
    by_cases comma : c = ','
    · simp only [if_pos comma]
      refine (fixed_skipBlanks stays closes fun t inside some => ?_).mono within
      exact fixed t (inside.trans within) some
    · simp only [if_neg comma]
      refine .settled (.malformed .comma (c :: q) ?_ (List.cons_ne_nil c q) fun _ => rfl)
      exact front ▸ skipBlanks_suffix p

theorem fixed_afterName (stays : ∀ t, StaysIn t (value t)) (closes : Closes value)
    (fixed : ∀ q, q <:+ p → q ≠ [] → Fixed q fun z => value (q ++ z)) :
    Fixed p fun z => afterName value (p ++ z) := by
  cases front : skipBlanks p with
  | nil =>
    have blank (z) : afterName value (p ++ z) = afterName value z := by
      rw [afterName, afterName, skipBlanks_append_of_nil front]
    simp only [blank]
    refine .opened (fun z => staysIn_afterName fun t within => (stays t).mono within) ?_
    obtain ⟨c, more, v, solid, ends⟩ := closes
    refine ⟨':', c :: more, v, rfl, fun tail => (afterName_colon _).trans ?_⟩
    rw [List.cons_append, skipBlanks_of_not_blank solid]
    exact ends tail
  | cons c q =>
    have within : q <:+ p := suffix_of_skipBlanks front
    simp only [afterName, skipBlanks_append front]
    by_cases colon : c = ':'
    · simp only [if_pos colon]
      refine (fixed_skipBlanks stays closes fun t inside some => ?_).mono within
      exact fixed t (inside.trans within) some
    · simp only [if_neg colon]
      refine .settled (.malformed .colon (c :: q) ?_ (List.cons_ne_nil c q) fun _ => rfl)
      exact front ▸ skipBlanks_suffix p

/-- What comes after something that is settled decides in its turn. -/
theorem Settled.bind {read : List Char → Except Stop (α × List Char)}
    {next : α × List Char → Except Stop (Value × List Char)} (h : Settled p read)
    (later : ∀ a q, q <:+ p → q.length < p.length → Fixed q fun z => next (a, q ++ z)) :
    Fixed p fun z => read z >>= next := by
  cases h with
  | value a q within shorter reads =>
    simp only [reads]
    exact (later a q within shorter).mono within
  | malformed cause q within inside reads =>
    simp only [reads]
    exact .settled (.malformed cause q within inside fun _ => rfl)
  | number cause reads =>
    simp only [reads]
    exact .settled (.number cause fun _ => rfl)

theorem closes_readPart {whole : Value → Value}
    {parts : Value → List Char → Except Stop (Value × List Char)}
    (closes : Closes fun z => value (p ++ z)) (solid : isBlank closing = false) :
    Closes fun z => readPart value closing whole parts (p ++ z) := by
  obtain ⟨c, more, v, front, reads⟩ := closes
  refine ⟨c, more ++ [closing], whole v, front, fun tail => ?_⟩
  have read := reads (closing :: tail)
  dsimp only at read ⊢
  rw [List.append_assoc, List.singleton_append, readPart, read]
  exact afterPart_closing solid tail

/-- A part of a block is read, and what comes after it: if the part can be brought to an end, so
can the block. -/
theorem fixed_readPart {whole : Value → Value}
    {parts : Value → List Char → Except Stop (Value × List Char)}
    (first : Fixed p fun z => value (p ++ z)) (stays : ∀ v t, StaysIn t (parts v t))
    (closes : ∀ v, Closes (parts v)) (solid : isBlank closing = false)
    (fixed : ∀ v q, q <:+ p → q.length < p.length → Fixed q fun z => parts v (q ++ z)) :
    Fixed p fun z => readPart value closing whole parts (p ++ z) := by
  cases first with
  | settled h =>
    refine h.bind fun v q within shorter => fixed_afterPart (stays v) (closes v) solid ?_
    intro t inside _
    exact fixed v t (inside.trans within) (inside.length_le.trans_lt shorter)
  | opened stays' closes' =>
    exact .opened (fun z => staysIn_readPart (stays' z) stays) (closes_readPart closes' solid)

/-! ### Values, members and items -/

theorem closes_valueOf : Closes valueOf := ⟨'n', "ull".toList, .null, rfl, fun _ => rfl⟩

theorem closes_itemsOf (items : List Value) : Closes (itemsOf items) := by
  rw [funext (itemsOf_item items)]
  exact closes_readPart (p := []) closes_valueOf rfl

theorem closes_member (members : List (String × Value)) (name : String) :
    Closes (readPart valueOf '\x7d' (fun v => .obj (putMember members name v))
      fun v => membersOf (putMember members name v)) :=
  closes_readPart (p := []) closes_valueOf rfl

theorem closes_membersOf (members : List (String × Value)) : Closes (membersOf members) := by
  obtain ⟨c, more, v, solid, reads⟩ := closes_member members (String.ofList [])
  refine ⟨'"', '"' :: ':' :: c :: more, v, rfl, fun tail => ?_⟩
  have name := readStringFrom_quote ('"' :: '"' :: ':' :: c :: (more ++ tail)) []
    (':' :: c :: (more ++ tail))
  rw [List.cons_append, List.cons_append, List.cons_append, membersOf_named members name,
    afterName_colon, skipBlanks_of_not_blank solid]
  exact reads tail

/-- What lines make of the rest of a text, whichever reader reads it. -/
structure FixesAll (p : List Char) : Prop where
  value : Fixed p fun z => valueOf (p ++ z)
  members : ∀ members, Fixed p fun z => membersOf members (p ++ z)
  items : ∀ items, Fixed p fun z => itemsOf items (p ++ z)

section Shorter

variable (lines : IsWhole p) (shorter : ∀ q, q <:+ p → q.length < p.length → FixesAll q)

include lines shorter

theorem fixed_valueOf : Fixed p fun z => valueOf (p ++ z) := by
  cases p with
  | nil => exact .opened staysIn_valueOf closes_valueOf
  | cons c p =>
    have rest := List.suffix_cons c p
    have inner {q : List Char} (within : q <:+ p) : FixesAll q :=
      shorter q (within.trans rest) (Nat.lt_succ_of_le within.length_le)
    by_cases quote : c = '"'
    · subst quote
      simp only [List.cons_append, valueOf_string]
      exact .settled ((settled_readString lines).map Value.str)
    by_cases object : c = '\x7b'
    · subst object
      simp only [List.cons_append, valueOf_object]
      refine (fixed_inBlock (staysIn_membersOf []) rfl fun q within _ => ?_).mono rest
      exact (inner within).members []
    by_cases array : c = '['
    · subst array
      simp only [List.cons_append, valueOf_array]
      refine (fixed_inBlock (staysIn_itemsOf []) rfl fun q within _ => ?_).mono rest
      exact (inner within).items []
    simp only [List.cons_append, valueOf_scalar quote object array]
    exact .settled (settled_readWordOrNumber lines (List.cons_ne_nil c p))

theorem fixed_membersOf (members : List (String × Value)) :
    Fixed p fun z => membersOf members (p ++ z) := by
  cases p with
  | nil => exact .opened (staysIn_membersOf members) (closes_membersOf members)
  | cons c p =>
    by_cases quote : c = '"'
    · subst quote
      simp only [List.cons_append, membersOf_name]
      refine (settled_readString lines).bind fun name q within less => ?_
      refine fixed_afterName (fun t => ?_) (closes_member members name) fun t inside _ => ?_
      · exact staysIn_readPart (staysIn_valueOf t) fun v => staysIn_membersOf _
      · have within' := inside.trans within
        have less' := inside.length_le.trans_lt less
        refine fixed_readPart (shorter t within' less').value (fun v => staysIn_membersOf _)
          (fun v => closes_membersOf _) rfl fun v r inner less => ?_
        exact (shorter r (inner.trans within') (less.trans less')).members _
    · have other (s t : List Char) : c :: s ≠ '"' :: t := fun same => quote (List.cons.inj same).1
      simp only [List.cons_append, membersOf_other members (other _)]
      refine .settled (.malformed .name (c :: p) ?_ (List.cons_ne_nil c p) fun _ => rfl)
      exact List.suffix_refl _

/-- The first of some items is the value of the same text. -/
theorem fixed_itemsOf (items : List Value) : Fixed p fun z => itemsOf items (p ++ z) := by
  simp only [itemsOf_item]
  exact fixed_readPart (fixed_valueOf lines shorter) (fun v => staysIn_itemsOf _)
    (fun v => closes_itemsOf _) rfl fun v q within less => (shorter q within less).items _

end Shorter

/-- What whole lines make of the rest of a text. The readers call each other for shorter texts, so
that one induction carries all of them. -/
theorem fixesAll (lines : IsWhole p) : FixesAll p := by
  induction length : p.length using Nat.strong_induction_on generalizing p with
  | _ n ih =>
    subst length
    have shorter (q : List Char) (within : q <:+ p) (less : q.length < p.length) : FixesAll q :=
      ih q.length less (lines.of_suffix within) rfl
    exact ⟨fixed_valueOf lines shorter, fixed_membersOf lines shorter, fixed_itemsOf lines shorter⟩

/-! ### Documents -/

/-- A text can be the beginning of a document. -/
def Begins (s : List Char) : Prop := ∃ more v, readDocument (s ++ more) = .ok v

/-- What the lines at the front of a document make of it: it is malformed within them, or a number
in them is too long, or they are the beginning of a document and it is read beyond them. -/
inductive Judged (p : List Char) : Prop
  | malformed (cause : Cause) (q : List Char) (inside : q ≠ [])
      (reads : ∀ z, readDocument (p ++ z) = .error (.malformed cause (q ++ z)))
  | number (cause : Numeral.ReadFault) (reads : ∀ z, readDocument (p ++ z) = .error (.number cause))
  | opened (begins : Begins p)
      (stops : ∀ z stop, readDocument (p ++ z) = .error stop → StopsIn z stop)

theorem judged_nil : Judged [] :=
  .opened ⟨"null".toList, .null, rfl⟩ fun _ _ h => stopsIn_of_readDocument h

theorem atEnd_append_of_nil (blank : skipBlanks q = []) (z : List Char) :
    atEnd v (q ++ z) = atEnd v z := by
  rw [atEnd, atEnd, skipBlanks_append_of_nil blank]

theorem judged_of_fixed (noMark : ∀ z, (p ++ z).head? ≠ some '\ufeff')
    (fixed : Fixed p fun z => valueOf (skipBlanks (p ++ z))) : Judged p := by
  have read (z) := readDocument_eq (noMark z)
  cases fixed with
  | settled h =>
    cases h with
    | value v q _ _ reads =>
      simp only [reads] at read
      cases front : skipBlanks q with
      | nil =>
        have after (z) : readDocument (p ++ z) = atEnd v z :=
          (read z).trans (atEnd_append_of_nil front z)
        refine .opened ⟨[], v, (after []).trans rfl⟩ fun z stop h => ?_
        have stays : StaysIn z (.ok (v, z)) := List.suffix_refl z
        exact stays.stopsIn_of_atEnd ((after z).symm.trans h)
      | cons c q =>
        refine .malformed .extra (c :: q) (List.cons_ne_nil c q) fun z => (read z).trans ?_
        change atEnd v _ = _
        rw [atEnd, skipBlanks_append front, if_neg (List.cons_ne_nil _ _), List.cons_append]
    | malformed cause q _ inside reads =>
      exact .malformed cause q inside fun z => by rw [read, reads]; rfl
    | number cause reads => exact .number cause fun z => by rw [read, reads]; rfl
  | opened stays closes =>
    obtain ⟨c, more, v, -, reads⟩ := closes
    refine .opened ⟨c :: (more ++ []), v, ?_⟩ fun z stop h => ?_
    · have value := reads []
      dsimp only at value
      rw [read, value]
      rfl
    · rw [read] at h
      exact (stays z).stopsIn_of_atEnd h

/-- What is made of a document by the whole lines at its front does not depend on the rest. -/
theorem judged (lines : IsWhole p) : Judged p := by
  cases p with
  | nil => exact judged_nil
  | cons c p =>
    by_cases mark : c = '\ufeff'
    · subst mark
      exact .malformed .mark ('\ufeff' :: p) (List.cons_ne_nil _ p) fun z => rfl
    · refine judged_of_fixed (fun z front => mark (Option.some_inj.1 front)) ?_
      refine fixed_skipBlanks staysIn_valueOf closes_valueOf fun q within _ => ?_
      exact (fixesAll (lines.of_suffix within)).value

theorem not_begins_of_malformed {cause : Cause}
    (reads : ∀ z, readDocument (p ++ z) = .error (.malformed cause (q ++ z))) : ¬ Begins p := by
  rintro ⟨more, v, ok⟩
  cases (reads more).symm.trans ok

/-- The reader of a malformed document stops after whole lines at its front exactly if these can be
the beginning of a document. -/
theorem suffix_iff_begins {cause : Cause} {rest z : List Char} (lines : IsWhole p)
    (h : readDocument (p ++ z) = .error (.malformed cause rest)) : rest <:+ z ↔ Begins p := by
  cases judged lines with
  | malformed cause' q inside reads =>
    have same := (reads z).symm.trans h
    simp only [Except.error.injEq, Stop.malformed.injEq] at same
    obtain ⟨-, rfl⟩ := same
    refine iff_of_false (fun within => ?_) (not_begins_of_malformed reads)
    have length := within.length_le
    have some := List.length_pos_of_ne_nil inside
    rw [List.length_append] at length
    omega
  | number cause' reads => cases (reads z).symm.trans h
  | opened begins stops => exact iff_of_true (stops z _ h) begins

/-! ### The line -/

/-- The reader stops on a line of a text, counted from one: the lines before it can be the beginning
of a document, and with it they cannot, unless it is the last one. -/
def StopsOnLine (s : List Char) (line : Nat) : Prop :=
  ∃ before here after, s = before ++ here ++ after ∧ IsWhole before ∧ '\n' ∉ here ∧
    before.count '\n' + 1 = line ∧ Begins before ∧
      (after = [] ∨ ∃ later, after = '\n' :: later ∧ ¬ Begins (before ++ here ++ ['\n']))

theorem Begins.of_isPrefix (begins : Begins s) (front : p <+: s) : Begins p := by
  obtain ⟨more, v, reads⟩ := begins
  obtain ⟨t, rfl⟩ := front
  exact ⟨t ++ more, v, by rwa [← List.append_assoc]⟩

theorem exists_isWhole_append (s : List Char) :
    ∃ before here, s = before ++ here ∧ IsWhole before ∧ '\n' ∉ here := by
  induction s using List.reverseRecOn with
  | nil => exact ⟨[], [], rfl, isWhole_nil, List.not_mem_nil⟩
  | append_singleton s c ih =>
    by_cases newline : c = '\n'
    · subst newline
      exact ⟨s ++ ['\n'], [], (List.append_nil _).symm, isWhole_concat s, List.not_mem_nil⟩
    · obtain ⟨before, here, rfl, lines, oneLine⟩ := ih
      refine ⟨before, here ++ [c], List.append_assoc .., lines, ?_⟩
      rw [List.mem_append, List.mem_singleton]
      exact not_or.2 ⟨oneLine, fun same => newline same.symm⟩

theorem exists_append_newline (s : List Char) :
    ∃ here after, s = here ++ after ∧ '\n' ∉ here ∧
      (after = [] ∨ ∃ later, after = '\n' :: later) := by
  induction s with
  | nil => exact ⟨[], [], rfl, List.not_mem_nil, .inl rfl⟩
  | cons c s ih =>
    by_cases newline : c = '\n'
    · subst newline
      exact ⟨[], '\n' :: s, rfl, List.not_mem_nil, .inr ⟨s, rfl⟩⟩
    · obtain ⟨here, after, rfl, oneLine, ending⟩ := ih
      refine ⟨c :: here, after, rfl, ?_, ending⟩
      rw [List.mem_cons]
      exact not_or.2 ⟨fun same => newline same.symm, oneLine⟩

theorem stopsOnLine_of_readDocument {cause : Cause} {rest : List Char}
    (h : readDocument s = .error (.malformed cause rest)) : StopsOnLine s (lineOf s rest) := by
  obtain ⟨front, rfl⟩ : rest <:+ s := stopsIn_of_readDocument h
  obtain ⟨before, left, rfl, lines, noEnd⟩ := exists_isWhole_append front
  obtain ⟨right, after, rfl, noEnd', ending⟩ := exists_append_newline rest
  have number : before.count '\n' + 1 =
      lineOf (before ++ left ++ (right ++ after)) (right ++ after) := by
    rw [lineOf, List.length_append, Nat.add_sub_cancel, List.take_left, List.count_append,
      List.count_eq_zero_of_not_mem noEnd, Nat.add_zero]
  have here : '\n' ∉ left ++ right := by
    rw [List.mem_append]
    exact not_or.2 ⟨noEnd, noEnd'⟩
  have begins : Begins before := by
    rw [List.append_assoc] at h
    exact (suffix_iff_begins lines h).1 (List.suffix_append left _)
  refine ⟨before, left ++ right, after, by simp, lines, here, number, begins, ?_⟩
  rcases ending with rfl | ⟨later, rfl⟩
  · exact .inl rfl
  · refine .inr ⟨later, rfl, fun begins => ?_⟩
    have h' : readDocument (before ++ (left ++ right) ++ ['\n'] ++ later) =
        .error (.malformed cause (right ++ '\n' :: later)) := by
      simpa using h
    have within := (suffix_iff_begins (isWhole_concat _) h').2 begins
    have length := within.length_le
    rw [List.length_append, List.length_cons] at length
    omega

theorem StopsOnLine.le {line line' : Nat} (h : StopsOnLine s line) (h' : StopsOnLine s line') :
    line' ≤ line := by
  obtain ⟨before, here, after, rfl, -, noEnd, rfl, -, ending⟩ := h
  obtain ⟨before', here', after', same, -, -, rfl, begins, -⟩ := h'
  have count : (before ++ here).count '\n' = before.count '\n' := by
    rw [List.count_append, List.count_eq_zero_of_not_mem noEnd, Nat.add_zero]
  have front : before' <+: before ++ here ++ after := by
    rw [same, List.append_assoc]
    exact List.prefix_append _ _
  have inside (early : before' <+: before ++ here) :
      before'.count '\n' + 1 ≤ before.count '\n' + 1 := by
    rw [← count]
    exact Nat.succ_le_succ (early.sublist.count_le '\n')
  rcases ending with rfl | ⟨later, rfl, refused⟩
  · rw [List.append_nil] at front
    exact inside front
  · have line : before ++ here ++ ['\n'] <+: before ++ here ++ '\n' :: later := ⟨later, by simp⟩
    rcases List.prefix_or_prefix_of_prefix line front with longer | shorter
    · exact absurd (begins.of_isPrefix longer) refused
    · rcases List.prefix_concat_iff.1 shorter with rfl | early
      · exact absurd begins refused
      · exact inside early

/-- The line that is named for a malformed text is the one on which the reader stops. -/
theorem stopsOnLine_iff_of_read {text : String} {cause : Cause} {line : Nat}
    (h : Json.read text = .error (.malformed cause line)) (n : Nat) :
    StopsOnLine text.toList n ↔ n = line := by
  have stops : StopsOnLine text.toList line := by
    rw [Json.read] at h
    split at h
    · cases h
    · next document =>
      cases h
      exact stopsOnLine_of_readDocument document
    · cases h
  constructor
  · intro other
    exact Nat.le_antisymm (stops.le other) (other.le stops)
  · rintro rfl
    exact stops

end PackPlan.Json
