import Mathlib.Data.List.Infix
import PackPlan.Proofs.Json.Values

/-!
# Where the reader stops

Whatever the reader makes of a text, it does so within the text: what it leaves unread is an end of
the text, and so is the place where it finds the text malformed. The only other reason for which
it stops is a run of more digits than a number may have.

## Main definitions

* `HasRun` — a text has so many digits in a row
* `StopsIn`, `StaysIn` — the reader stops within a text, or its result lies within it
* `inBlock`, `afterPart`, `afterName`, `atEnd` — what is made of a text at a mark

## Main results

* `staysIn_readStringFrom`, `staysIn_readWordOrNumber` — strings, words and numbers
* `readValue_inObject`, `readValue_inArray`, `readMembers_name`, `readItems_item`,
  `readDocument_value` — the readers, mark by mark
* `staysIn_readValue`, `staysIn_readMembers`, `staysIn_readItems` — values, members and items
* `stopsIn_of_readDocument` — documents
-/

namespace PackPlan.Json

variable {α β : Type} {fuel n : Nat} {s t start rest : List Char} {r : Except Stop (α × List Char)}

/-- A text has so many digits in a row. -/
def HasRun (n : Nat) (s : List Char) : Prop :=
  ∃ run, run <:+: s ∧ run.length = n ∧ ∀ c ∈ run, isDigit c = true

/-- The reader stops within a text: where the text is malformed, an end of it begins, and a number
that cannot be read is a run of too many digits in it. -/
def StopsIn (s : List Char) : Stop → Prop
  | .malformed _ rest => rest <:+ s
  | .number cause => ∃ n, cause = .tooManyDigits n ∧ Numeral.maxDigits < n ∧ HasRun n s

/-- A result lies within a text: what is left is an end of it, or the reader stops in it. -/
def StaysIn (s : List Char) : Except Stop (α × List Char) → Prop
  | .ok (_, rest) => rest <:+ s
  | .error stop => StopsIn s stop

theorem HasRun.mono (h : HasRun n s) (within : s <:+: t) : HasRun n t := by
  obtain ⟨run, inside, length, digits⟩ := h
  exact ⟨run, inside.trans within, length, digits⟩

theorem StopsIn.mono {stop : Stop} (h : StopsIn s stop) (within : s <:+ t) : StopsIn t stop := by
  cases stop with
  | malformed cause rest => exact List.IsSuffix.trans h within
  | number cause =>
    obtain ⟨n, same, long, run⟩ := h
    exact ⟨n, same, long, run.mono within.isInfix⟩

theorem StaysIn.mono (h : StaysIn s r) (within : s <:+ t) : StaysIn t r := by
  match r, h with
  | .ok (_, rest), h => exact List.IsSuffix.trans h within
  | .error stop, h => exact StopsIn.mono h within

/-- What is read of the rest of a text stays in the text. -/
theorem StaysIn.bind {f : α × List Char → Except Stop (β × List Char)} (h : StaysIn s r)
    (later : ∀ a rest, rest <:+ s → StaysIn s (f (a, rest))) : StaysIn s (r >>= f) := by
  match r, h with
  | .ok (a, rest), h => exact later a rest h
  | .error stop, h => exact h

theorem skipBlanks_suffix (s : List Char) : skipBlanks s <:+ s := List.dropWhile_suffix _

theorem suffix_of_skipBlanks {c : Char} (front : skipBlanks s = c :: rest) : rest <:+ s :=
  (List.suffix_cons c rest).trans (front ▸ skipBlanks_suffix s)

/-! ### Strings -/

theorem readHex4?_suffix {value : Nat} (h : readHex4? s = some (value, rest)) : rest <:+ s := by
  unfold readHex4? at h
  split at h
  · next a b c d rest' =>
    simp only [Option.bind_eq_bind, Option.bind_eq_some_iff, Option.pure_def,
      Option.some.injEq, Prod.mk.injEq] at h
    obtain ⟨-, -, -, -, -, -, -, -, -, rfl⟩ := h
    exact ⟨[a, b, c, d], rfl⟩
  · cases h

/-- A numbered escape is refused at its digits or at those of the second one. -/
theorem readUnicodeEscape_error {stop : Stop} (h : readUnicodeEscape s = .error stop) :
    ∃ rest, stop = .malformed .unicodeEscape rest ∧ rest <:+ s := by
  unfold readUnicodeEscape at h
  split at h
  · cases h
    exact ⟨s, rfl, List.suffix_refl s⟩
  · split at h
    · cases h
      exact ⟨s, rfl, List.suffix_refl s⟩
    · next high rest first =>
      split at h
      · next rest' _ =>
        split at h
        · cases h
          have second : rest' <:+ '\\' :: 'u' :: rest' := ⟨['\\', 'u'], rfl⟩
          exact ⟨rest', rfl, second.trans (readHex4?_suffix first)⟩
        · split at h <;> cases h
      · cases h

theorem readStringFrom_quote (start done s : List Char) :
    readStringFrom start 0 done ('"' :: s) = .ok (String.ofList done.reverse, s) := by
  cases s <;> rfl

theorem readStringFrom_unicode (start done digits : List Char) :
    readStringFrom start 0 done ('\\' :: 'u' :: digits) =
      readUnicodeEscape digits >>= fun (c, width) =>
        readStringFrom start (1 + width) (c :: done) ('u' :: digits) :=
  rfl

theorem readStringFrom_escape {e : Char} (start done s : List Char) (other : e ≠ 'u') :
    readStringFrom start 0 done ('\\' :: e :: s) = match escaped? e with
      | some c => readStringFrom start 1 (c :: done) (e :: s)
      | none => .error (.malformed .escape start) := by
  rw [readStringFrom.eq_5 _ _ _ _ _ other]
  exact (if_neg (by decide)).trans (if_pos rfl)

theorem readStringFrom_char {c : Char} (start done s : List Char) (quote : c ≠ '"')
    (backslash : c ≠ '\\') : readStringFrom start 0 done (c :: s) =
      if c.toNat < 0x20 then .error (.malformed .control (c :: s))
      else readStringFrom start 0 (c :: done) s := by
  rw [readStringFrom.eq_def]
  dsimp only
  rw [if_neg quote, if_neg backslash]

/-- A string is read within the text from its opening quote on. -/
theorem staysIn_readStringFrom (within : s <:+ start) (skip : Nat) (done : List Char) :
    StaysIn start (readStringFrom start skip done s) := by
  induction s generalizing skip done with
  | nil =>
    rw [readStringFrom.eq_1]
    exact List.suffix_refl start
  | cons c s ih =>
    have rest := (List.suffix_cons c s).trans within
    cases skip with
    | succ skip => exact ih rest skip done
    | zero =>
      by_cases quote : c = '"'
      · subst quote
        rw [readStringFrom_quote]
        exact rest
      by_cases backslash : c = '\\'
      · subst backslash
        cases s with
        | nil => exact List.suffix_refl start
        | cons e s =>
          by_cases unicode : e = 'u'
          · subst unicode
            rw [readStringFrom_unicode]
            cases escape : readUnicodeEscape s with
            | ok answer => exact ih rest _ _
            | error stop =>
              obtain ⟨digits, rfl, inside⟩ := readUnicodeEscape_error escape
              exact (inside.trans (List.suffix_cons 'u' s)).trans rest
          · rw [readStringFrom_escape start done s unicode]
            split
            · exact ih rest _ _
            · exact List.suffix_refl start
      rw [readStringFrom_char start done s quote backslash]
      split
      · exact within
      · exact ih rest _ _

/-! ### Numbers -/

theorem isDigit_decimal {c : Char} (digit : isDigit c = true) :
    Numeral.Radix.isDigit .decimal c = true := by
  simp only [isDigit, Bool.and_eq_true, decide_eq_true_eq] at digit
  have below : c.toNat ≤ '9'.toNat := UInt32.le_iff_toNat_le.1 (Char.le_def.1 digit.2)
  rw [Numeral.Radix.isDigit, Numeral.glyphValue?, if_pos digit, Option.any_some, decide_eq_true_eq]
  change c.toNat - 48 < 10
  change c.toNat ≤ 57 at below
  omega

theorem takeWhole_spec (s : List Char) : (takeWhole s).1 ++ (takeWhole s).2 = s ∧
    ∀ c ∈ (takeWhole s).1, isDigit c = true := by
  unfold takeWhole
  split
  · exact ⟨rfl, fun c mem => List.mem_singleton.1 mem ▸ rfl⟩
  · rw [List.span_eq_takeWhile_dropWhile]
    exact ⟨List.takeWhile_append_dropWhile, fun c mem => List.mem_takeWhile_imp mem⟩

theorem takeFraction_suffix (s : List Char) : (takeFraction s).2 <:+ s := by
  unfold takeFraction
  split
  · next s =>
    rw [List.span_eq_takeWhile_dropWhile]
    dsimp only
    split
    · exact List.suffix_refl _
    · exact (List.dropWhile_suffix _).trans (List.suffix_cons _ s)
  · exact List.suffix_refl _

theorem takeSign_suffix (s : List Char) : (Numeral.takeSign s).2 <:+ s := by
  unfold Numeral.takeSign
  split
  · exact List.suffix_cons _ _
  · exact List.suffix_cons _ _
  · exact List.suffix_refl _

theorem takeExponent_suffix (s : List Char) : (takeExponent s).2 <:+ s := by
  unfold takeExponent
  split
  · next e rest =>
    split
    · dsimp only
      rw [List.span_eq_takeWhile_dropWhile]
      dsimp only
      split
      · exact List.suffix_refl _
      · have digits := (List.dropWhile_suffix isDigit).trans (takeSign_suffix rest)
        exact digits.trans (List.suffix_cons e rest)
    · exact List.suffix_refl _
  · exact List.suffix_refl _

/-- A number that cannot be read has too many digits. -/
theorem staysIn_readUnsigned (within : s <:+ start) (negative : Bool) :
    StaysIn start (readUnsigned start negative s) := by
  obtain ⟨parts, digits⟩ := takeWhole_spec s
  unfold readUnsigned
  split
  · exact List.suffix_refl start
  · next whole rest nonempty taken =>
    rw [taken] at parts digits
    have left : (takeExponent (takeFraction rest).2).2 <:+ s :=
      ((takeExponent_suffix _).trans (takeFraction_suffix _)).trans ⟨whole, parts⟩
    dsimp only
    split
    · have decimals : ∀ c ∈ whole, Numeral.Radix.isDigit .decimal c = true :=
        fun c mem => isDigit_decimal (digits c mem)
      by_cases long : Numeral.maxDigits < whole.length
      · rw [Numeral.read_of_long decimals long]
        have inside : whole <:+: start := (List.IsPrefix.isInfix ⟨rest, parts⟩).trans within.isInfix
        exact ⟨whole.length, rfl, long, whole, inside, rfl, digits⟩
      · have short : Numeral.Radix.decimal = .decimal → whole.length ≤ Numeral.maxDigits :=
          fun _ => Nat.not_lt.1 long
        rw [Numeral.read_of_digits nonempty decimals short]
        exact left.trans within
    · exact left.trans within

theorem staysIn_readWordOrNumber (s : List Char) : StaysIn s (readWordOrNumber s) := by
  unfold readWordOrNumber
  split
  · exact List.drop_suffix _ s
  · unfold readNumber
    split
    · exact staysIn_readUnsigned (List.suffix_cons _ _) true
    · exact staysIn_readUnsigned (List.suffix_refl _) false

/-! ### Blocks -/

/-- What is made of a text after the opening mark of an array or an object: it may be closed at
once, with nothing in it, and otherwise its parts are read. -/
def inBlock (closing : Char) (nothing : Value)
    (parts : List Char → Except Stop (Value × List Char)) (s : List Char) :
    Except Stop (Value × List Char) :=
  match skipBlanks s with
  | [] => parts []
  | c :: s => if c = closing then .ok (nothing, s) else parts (c :: s)

/-- What is made of a text after a part of an array or an object: it is closed, or it goes on after
a comma. -/
def afterPart (closing : Char) (whole : Value)
    (parts : List Char → Except Stop (Value × List Char)) (s : List Char) :
    Except Stop (Value × List Char) :=
  match skipBlanks s with
  | [] => .error (.malformed .comma [])
  | c :: s =>
    if c = closing then .ok (whole, s)
    else if c = ',' then parts (skipBlanks s)
    else .error (.malformed .comma (c :: s))

/-- What is made of a text at the value of a part: the value is read, and what comes after it. -/
def readPart (value : List Char → Except Stop (Value × List Char)) (closing : Char)
    (whole : Value → Value) (parts : Value → List Char → Except Stop (Value × List Char))
    (s : List Char) : Except Stop (Value × List Char) := do
  let (v, rest) ← value s
  afterPart closing (whole v) (parts v) rest

/-- What is made of a text after the name of a member: a colon comes before the value. -/
def afterName (value : List Char → Except Stop (Value × List Char)) (s : List Char) :
    Except Stop (Value × List Char) :=
  match skipBlanks s with
  | [] => .error (.malformed .colon [])
  | c :: s => if c = ':' then value (skipBlanks s) else .error (.malformed .colon (c :: s))

theorem readValue_string (fuel : Nat) (s : List Char) :
    readValue (fuel + 1) ('"' :: s) = do
      let (t, rest) ← readString ('"' :: s) s
      return (.str t, rest) :=
  rfl

theorem readValue_inObject (fuel : Nat) (s : List Char) :
    readValue (fuel + 1) ('\x7b' :: s) = inBlock '\x7d' (.obj []) (readMembers fuel []) s := by
  rw [readValue_object, inBlock]
  cases skipBlanks s with
  | nil => rfl
  | cons c s =>
    by_cases closed : c = '\x7d'
    · subst closed
      rfl
    · dsimp only
      rw [if_neg closed]
      split
      · next same => exact absurd (List.cons.inj same).1 closed
      · rfl

theorem readValue_inArray (fuel : Nat) (s : List Char) :
    readValue (fuel + 1) ('[' :: s) = inBlock ']' (.arr []) (readItems fuel []) s := by
  rw [readValue_array, inBlock]
  cases skipBlanks s with
  | nil => rfl
  | cons c s =>
    by_cases closed : c = ']'
    · subst closed
      rfl
    · dsimp only
      rw [if_neg closed]
      split
      · next same => exact absurd (List.cons.inj same).1 closed
      · rfl

theorem readItems_item (fuel : Nat) (items : List Value) (s : List Char) :
    readItems (fuel + 1) items s = readPart (readValue fuel) ']'
      (fun v => .arr (v :: items).reverse) (fun v => readItems fuel (v :: items)) s := by
  rw [readItems.eq_2, readPart]
  refine bind_congr fun x => ?_
  obtain ⟨v, rest⟩ := x
  dsimp only
  rw [afterPart]
  cases skipBlanks rest with
  | nil => rfl
  | cons c s =>
    by_cases closed : c = ']'
    · subst closed
      rfl
    by_cases comma : c = ','
    · subst comma
      rfl
    · dsimp only
      rw [if_neg closed, if_neg comma]
      split
      · next same => exact absurd (List.cons.inj same).1 closed
      · next same => exact absurd (List.cons.inj same).1 comma
      · rfl

theorem readMembers_name (fuel : Nat) (members : List (String × Value)) (s : List Char) :
    readMembers (fuel + 1) members ('"' :: s) =
      readString ('"' :: s) s >>= fun (name, rest) =>
        afterName (readPart (readValue fuel) '\x7d' (fun v => .obj (putMember members name v))
          fun v => readMembers fuel (putMember members name v)) rest := by
  rw [readMembers.eq_2]
  refine bind_congr fun x => ?_
  obtain ⟨name, rest⟩ := x
  dsimp only
  rw [afterName]
  cases skipBlanks rest with
  | nil => rfl
  | cons c s =>
    by_cases colon : c = ':'
    · subst colon
      dsimp only
      rw [if_pos rfl, readPart]
      refine bind_congr fun x => ?_
      obtain ⟨v, rest⟩ := x
      dsimp only
      rw [afterPart]
      cases skipBlanks rest with
      | nil => rfl
      | cons c s =>
        by_cases closed : c = '\x7d'
        · subst closed
          rfl
        by_cases comma : c = ','
        · subst comma
          rfl
        · dsimp only
          rw [if_neg closed, if_neg comma]
          split
          · next same => exact absurd (List.cons.inj same).1 closed
          · next same => exact absurd (List.cons.inj same).1 comma
          · rfl
    · dsimp only
      rw [if_neg colon]
      split
      · next same => exact absurd (List.cons.inj same).1 colon
      · rfl

/-! ### Values and documents -/

variable {closing : Char} {whole : Value}
  {parts value : List Char → Except Stop (Value × List Char)}

theorem staysIn_inBlock (inner : ∀ t, t <:+ s → StaysIn s (parts t)) :
    StaysIn s (inBlock closing whole parts s) := by
  rw [inBlock]
  split
  · next empty => exact inner [] (List.nil_suffix)
  · next c t front =>
    split
    · exact suffix_of_skipBlanks front
    · exact inner _ (front ▸ skipBlanks_suffix s)

theorem staysIn_afterPart (later : ∀ t, t <:+ s → StaysIn s (parts t)) :
    StaysIn s (afterPart closing whole parts s) := by
  rw [afterPart]
  split
  · exact List.nil_suffix
  · next c t front =>
    have rest := suffix_of_skipBlanks front
    split
    · exact rest
    · split
      · exact later _ ((skipBlanks_suffix t).trans rest)
      · exact front ▸ skipBlanks_suffix s

theorem staysIn_readPart {whole : Value → Value}
    {parts : Value → List Char → Except Stop (Value × List Char)} (first : StaysIn t (value s))
    (later : ∀ v t, StaysIn t (parts v t)) : StaysIn t (readPart value closing whole parts s) :=
  first.bind fun v _ left =>
    (staysIn_afterPart fun t inside => (later v t).mono inside).mono left

theorem staysIn_afterName (later : ∀ t, t <:+ s → StaysIn s (value t)) :
    StaysIn s (afterName value s) := by
  rw [afterName]
  split
  · exact List.nil_suffix
  · next c t front =>
    split
    · exact later _ ((skipBlanks_suffix t).trans (suffix_of_skipBlanks front))
    · exact front ▸ skipBlanks_suffix s

/-- What is left when values, members and items are read, or the place where they are malformed, is
an end of the text. The three readers call each other with less fuel, so that one induction carries
all of them. -/
theorem staysIn_readers (fuel : Nat) :
    (∀ s, StaysIn s (readValue fuel s)) ∧
      (∀ members s, StaysIn s (readMembers fuel members s)) ∧
      ∀ items s, StaysIn s (readItems fuel items s) := by
  induction fuel with
  | zero =>
    exact ⟨List.suffix_refl, fun _ => List.suffix_refl, fun _ => List.suffix_refl⟩
  | succ fuel ih =>
    obtain ⟨values, objects, arrays⟩ := ih
    have string : ∀ s, StaysIn ('"' :: s) (readString ('"' :: s) s) := fun s =>
      staysIn_readStringFrom (List.suffix_cons '"' s) 0 []
    refine ⟨fun s => ?_, fun members s => ?_, fun items s => ?_⟩
    · cases s with
      | nil => exact staysIn_readWordOrNumber []
      | cons c s =>
        have rest := List.suffix_cons c s
        by_cases quote : c = '"'
        · subst quote
          rw [readValue_string]
          exact (string s).bind fun t rest within => within
        by_cases object : c = '\x7b'
        · subst object
          rw [readValue_inObject]
          exact (staysIn_inBlock fun t within => (objects [] t).mono within).mono rest
        by_cases array : c = '['
        · subst array
          rw [readValue_inArray]
          exact (staysIn_inBlock fun t within => (arrays [] t).mono within).mono rest
        rw [readValue_scalar quote object array]
        exact staysIn_readWordOrNumber _
    · by_cases name : ∃ t, s = '"' :: t
      · obtain ⟨t, rfl⟩ := name
        rw [readMembers_name]
        refine (string t).bind fun name rest within => ?_
        refine StaysIn.mono (staysIn_afterName fun t inside => StaysIn.mono ?_ inside) within
        exact staysIn_readPart (values t) fun v => objects _
      · rw [readMembers.eq_3 _ _ _ fun t same => name ⟨t, same⟩]
        exact List.suffix_refl s
    · rw [readItems_item]
      exact staysIn_readPart (values s) fun v => arrays _

theorem staysIn_readValue (fuel : Nat) (s : List Char) : StaysIn s (readValue fuel s) :=
  (staysIn_readers fuel).1 s

theorem staysIn_readMembers (fuel : Nat) (members : List (String × Value)) (s : List Char) :
    StaysIn s (readMembers fuel members s) :=
  (staysIn_readers fuel).2.1 members s

theorem staysIn_readItems (fuel : Nat) (items : List Value) (s : List Char) :
    StaysIn s (readItems fuel items s) :=
  (staysIn_readers fuel).2.2 items s

/-- After the value of a document nothing may follow but blanks. -/
def atEnd (v : Value) (s : List Char) : Except Stop Value :=
  if skipBlanks s = [] then .ok v else .error (.malformed .extra (skipBlanks s))

theorem readDocument_value (noMark : s.head? ≠ some '\ufeff') :
    readDocument s = readValue (2 * s.length + 2) (skipBlanks s) >>= fun (v, rest) =>
      atEnd v rest := by
  unfold readDocument
  split
  · exact absurd rfl noMark
  · refine bind_congr fun x => ?_
    obtain ⟨v, rest⟩ := x
    dsimp only
    rw [atEnd]
    cases skipBlanks rest with
    | nil => rfl
    | cons c rest => rfl

/-- The value of a document stays within the text, and so does what is left after it. -/
theorem StaysIn.stopsIn_of_atEnd {r : Except Stop (Value × List Char)} {stop : Stop}
    (stays : StaysIn s r) (h : (r >>= fun (v, rest) => atEnd v rest) = .error stop) :
    StopsIn s stop := by
  match r, stays, h with
  | .error _, stays, h =>
    cases h
    exact stays
  | .ok (v, rest), stays, h =>
    change atEnd v rest = .error stop at h
    rw [atEnd] at h
    split at h
    · cases h
    · cases h
      exact (skipBlanks_suffix rest).trans stays

/-- Where the reader of a document stops, it stops in the document. -/
theorem stopsIn_of_readDocument {stop : Stop} (h : readDocument s = .error stop) :
    StopsIn s stop := by
  by_cases marked : ∃ t, s = '\ufeff' :: t
  · obtain ⟨t, rfl⟩ := marked
    cases h
    exact List.suffix_refl _
  · have noMark : s.head? ≠ some '\ufeff' := fun front => marked (List.head?_eq_some_iff.1 front)
    rw [readDocument_value noMark] at h
    exact ((staysIn_readValue _ (skipBlanks s)).mono (skipBlanks_suffix s)).stopsIn_of_atEnd h

end PackPlan.Json
