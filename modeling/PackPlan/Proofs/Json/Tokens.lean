import Mathlib.Data.List.Find
import PackPlan.Proofs.Json.Stopping

/-!
# Words, numbers and strings on whole lines

No word, number or string goes on beyond the end of its line. So what is read of one that begins
on a line that is there as a whole does not depend on the lines that follow: either it ends, or it
is found malformed, or its number is too long, before the line ends.

## Main definitions

* `IsWhole` — a text is made of whole lines
* `Settled` — what is read of all texts that begin with the same lines
* `IsLocal` — a part of a number that does not go beyond its line
* `numberOf`, `pairOf` — what is made of the parts of a number, and of what follows half a pair

## Main results

* `settled_readWordOrNumber` — words and numbers
* `read_of_manyDigits` — a number that is too long
* `settled_readString` — strings
-/

namespace PackPlan.Json

variable {α β : Type} {c : Char} {p q s start word : List Char}

/-- A text is made of whole lines: it is empty or ends with a line end. -/
def IsWhole (s : List Char) : Prop := ∀ c ∈ s.getLast?, c = '\n'

/-- What is read of all texts that begin with the same lines, given what follows the lines: a value,
and some of the lines may be left; a stop within the lines; or a number that is too long. -/
inductive Settled (p : List Char) (read : List Char → Except Stop (α × List Char)) : Prop
  | value (a : α) (q : List Char) (within : q <:+ p) (shorter : q.length < p.length)
      (reads : ∀ z, read z = .ok (a, q ++ z))
  | malformed (cause : Cause) (q : List Char) (within : q <:+ p) (inside : q ≠ [])
      (reads : ∀ z, read z = .error (.malformed cause (q ++ z)))
  | number (cause : Numeral.ReadFault) (reads : ∀ z, read z = .error (.number cause))

/-! ### Whole lines -/

theorem isWhole_nil : IsWhole [] := nofun

theorem IsWhole.of_suffix (whole : IsWhole s) (within : q <:+ s) : IsWhole q := by
  obtain ⟨t, rfl⟩ := within
  intro c last
  apply whole
  rw [Option.mem_def, List.getLast?_append, Option.mem_def.1 last]
  rfl

theorem IsWhole.tail (whole : IsWhole (c :: s)) : IsWhole s :=
  whole.of_suffix (List.suffix_cons c s)

theorem IsWhole.newline_mem (whole : IsWhole s) (nonempty : s ≠ []) : '\n' ∈ s := by
  have last := List.getLast?_eq_some_getLast nonempty
  exact whole _ last ▸ List.getLast_mem nonempty

/-- A character other than a line end is not the last one. -/
theorem IsWhole.ne_nil (whole : IsWhole (c :: s)) (other : c ≠ '\n') : s ≠ [] := by
  rintro rfl
  exact other (whole c rfl)

theorem isWhole_concat (s : List Char) : IsWhole (s ++ ['\n']) := by
  intro c last
  rw [List.getLast?_append] at last
  exact (Option.some_inj.1 last).symm

/-! ### Words -/

/-- A word without a line end is looked for on the first line only. -/
theorem isPrefixOf_append_of_newline (oneLine : '\n' ∉ word) (newline : '\n' ∈ p)
    (z : List Char) : word.isPrefixOf (p ++ z) = word.isPrefixOf p := by
  rw [Bool.eq_iff_iff, List.isPrefixOf_iff_prefix, List.isPrefixOf_iff_prefix]
  constructor
  · intro front
    rcases List.prefix_or_prefix_of_prefix front (List.prefix_append p z) with inside | beyond
    · exact inside
    · exact absurd (beyond.subset newline) oneLine
  · intro front
    exact front.trans (List.prefix_append p z)

theorem oneLine_of_mem_words {w : List Char × Value} (mem : w ∈ words) :
    '\n' ∉ w.1 ∧ w.1 ≠ [] := by
  simp only [words, List.mem_cons, List.not_mem_nil, or_false] at mem
  rcases mem with rfl | rfl | rfl | rfl | rfl | rfl <;> decide

theorem find?_words_append (whole : IsWhole p) (nonempty : p ≠ []) (z : List Char) :
    words.find? (fun w => w.1.isPrefixOf (p ++ z)) = words.find? (fun w => w.1.isPrefixOf p) := by
  have newline := whole.newline_mem nonempty
  refine List.find?_congr fun w mem => ?_
  exact isPrefixOf_append_of_newline (oneLine_of_mem_words mem).1 newline z

/-! ### Numbers -/

/-- A part at the front of a text is taken from its first lines only. -/
def IsLocal (take : List Char → α × List Char) : Prop :=
  ∀ p, IsWhole p → p ≠ [] →
    (take p).2 <:+ p ∧ (take p).2 ≠ [] ∧ ∀ z, take (p ++ z) = ((take p).1, (take p).2 ++ z)

theorem isLocal_span : IsLocal (List.span isDigit) := by
  intro p whole nonempty
  have other : ¬ ∀ c ∈ p, isDigit c = true := fun digits =>
    absurd (digits '\n' (whole.newline_mem nonempty)) (by decide)
  have left : p.dropWhile isDigit ≠ [] := fun empty => other (List.dropWhile_eq_nil_iff.1 empty)
  have short : (p.takeWhile isDigit).length ≠ p.length := fun all =>
    other (List.takeWhile_eq_self_iff.1 ((List.takeWhile_prefix isDigit).eq_of_length all))
  simp only [List.span_eq_takeWhile_dropWhile]
  refine ⟨List.dropWhile_suffix isDigit, left, fun z => ?_⟩
  rw [List.takeWhile_append, if_neg short, List.dropWhile_append, if_neg (by simpa using left)]

theorem isLocal_takeWhole : IsLocal takeWhole := by
  intro p whole nonempty
  obtain ⟨c, p, rfl⟩ := List.exists_cons_of_ne_nil nonempty
  by_cases zero : c = '0'
  · subst zero
    exact ⟨List.suffix_cons '0' p, whole.ne_nil (by decide), fun _ => rfl⟩
  · have digits : ∀ s, takeWhole (c :: s) = (c :: s).span isDigit := fun s =>
      takeWhole.eq_2 _ fun t same => zero (List.cons.inj same).1
    simp only [List.cons_append, digits]
    exact isLocal_span (c :: p) whole nonempty

theorem takeFraction_point (s : List Char) : takeFraction ('.' :: s) =
    if (s.span isDigit).1 = [] then (none, '.' :: s)
    else (some (s.span isDigit).1, (s.span isDigit).2) :=
  rfl

theorem isLocal_takeFraction : IsLocal takeFraction := by
  intro p whole nonempty
  obtain ⟨c, p, rfl⟩ := List.exists_cons_of_ne_nil nonempty
  by_cases point : c = '.'
  · subst point
    obtain ⟨within, left, more⟩ := isLocal_span p whole.tail (whole.ne_nil (by decide))
    by_cases nothing : (p.span isDigit).1 = []
    · simp only [List.cons_append, takeFraction_point, more, if_pos nothing]
      exact ⟨List.suffix_refl _, nonempty, fun _ => trivial⟩
    · simp only [List.cons_append, takeFraction_point, more, if_neg nothing]
      exact ⟨within.trans (List.suffix_cons '.' p), left, fun _ => trivial⟩
  · have none : ∀ s, takeFraction (c :: s) = (none, c :: s) := fun s =>
      takeFraction.eq_2 _ fun t same => point (List.cons.inj same).1
    simp only [List.cons_append, none]
    exact ⟨List.suffix_refl _, nonempty, fun _ => trivial⟩

theorem isLocal_takeSign : IsLocal Numeral.takeSign := by
  intro p whole nonempty
  obtain ⟨c, p, rfl⟩ := List.exists_cons_of_ne_nil nonempty
  by_cases minus : c = '-'
  · subst minus
    exact ⟨List.suffix_cons '-' p, whole.ne_nil (by decide), fun _ => rfl⟩
  by_cases plus : c = '+'
  · subst plus
    exact ⟨List.suffix_cons '+' p, whole.ne_nil (by decide), fun _ => rfl⟩
  have none : ∀ s, Numeral.takeSign (c :: s) = (false, c :: s) := fun s =>
    Numeral.takeSign.eq_3 _ (fun t same => minus (List.cons.inj same).1)
      fun t same => plus (List.cons.inj same).1
  simp only [List.cons_append, none]
  exact ⟨List.suffix_refl _, nonempty, fun _ => trivial⟩

theorem isLocal_takeExponent : IsLocal takeExponent := by
  intro p whole nonempty
  obtain ⟨c, p, rfl⟩ := List.exists_cons_of_ne_nil nonempty
  by_cases letter : c = 'e' ∨ c = 'E'
  · have other : c ≠ '\n' := by rcases letter with rfl | rfl <;> decide
    obtain ⟨signed, left, more⟩ := isLocal_takeSign p whole.tail (whole.ne_nil other)
    obtain ⟨within, left', more'⟩ := isLocal_span _ (whole.tail.of_suffix signed) left
    by_cases nothing : ((Numeral.takeSign p).2.span isDigit).1 = []
    · simp only [List.cons_append, takeExponent, if_pos letter, more, more', if_pos nothing]
      exact ⟨List.suffix_refl _, nonempty, fun _ => trivial⟩
    · simp only [List.cons_append, takeExponent, if_pos letter, more, more', if_neg nothing]
      exact ⟨(within.trans signed).trans (List.suffix_cons c p), left', fun _ => trivial⟩
  · simp only [List.cons_append, takeExponent, if_neg letter]
    exact ⟨List.suffix_refl _, nonempty, fun _ => trivial⟩

/-- What is made of a number that has been taken apart. -/
def numberOf (negative : Bool) (whole : List Char) (fraction : Option (List Char))
    (exponent : Option Int) (rest : List Char) : Except Stop (Value × List Char) :=
  if fraction.isNone ∧ exponent.isNone then
    match Numeral.read .decimal (String.ofList whole) with
    | .ok n => .ok (.int (if negative then -n else n), rest)
    | .error cause => .error (.number cause)
  else
    let decimals := fraction.getD []
    .ok (.real (Binary64.ofDecimal negative (digitsValue (whole ++ decimals))
      (exponent.getD 0 - decimals.length)), rest)

theorem readUnsigned_eq (start : List Char) (negative : Bool) (s : List Char) :
    readUnsigned start negative s =
      if (takeWhole s).1 = [] then .error (.malformed .value start)
      else
        let fraction := takeFraction (takeWhole s).2
        let exponent := takeExponent fraction.2
        numberOf negative (takeWhole s).1 fraction.1 exponent.1 exponent.2 := by
  unfold readUnsigned
  obtain ⟨whole, rest⟩ := takeWhole s
  cases whole <;> rfl

theorem settled_readUnsigned (within : p <:+ start) (whole : IsWhole p) (nonempty : p ≠ [])
    (negative : Bool) : Settled start fun z => readUnsigned (start ++ z) negative (p ++ z) := by
  obtain ⟨digits, left, more⟩ := isLocal_takeWhole p whole nonempty
  obtain ⟨fraction, left, more'⟩ := isLocal_takeFraction _ (whole.of_suffix digits) left
  obtain ⟨exponent, left, more''⟩ :=
    isLocal_takeExponent _ (whole.of_suffix (fraction.trans digits)) left
  have started : start ≠ [] := by
    rintro rfl
    exact nonempty (List.suffix_nil.1 within)
  have parts := (takeWhole_spec p).1
  simp only [readUnsigned_eq, more, more', more'']
  by_cases nothing : (takeWhole p).1 = []
  · simp only [if_pos nothing]
    exact .malformed .value start (List.suffix_refl start) started fun _ => rfl
  · simp only [if_neg nothing]
    have rest := (exponent.trans fraction).trans digits
    have shorter : (takeExponent (takeFraction (takeWhole p).2).2).2.length < start.length := by
      have taken := congrArg List.length parts
      rw [List.length_append] at taken
      have some := List.length_pos_of_ne_nil nothing
      have after := (exponent.trans fraction).length_le
      have before := within.length_le
      omega
    generalize takeExponent (takeFraction (takeWhole p).2).2 = e at rest shorter
    obtain ⟨exponent, left⟩ := e
    unfold numberOf
    split
    · cases number : Numeral.read .decimal (String.ofList (takeWhole p).1) with
      | ok n => exact .value _ left (rest.trans within) shorter fun _ => rfl
      | error cause => exact .number cause fun _ => rfl
    · exact .value _ left (rest.trans within) shorter fun _ => rfl

/-- What is read of a word or a number does not depend on the lines after its own. -/
theorem settled_readWordOrNumber (whole : IsWhole p) (nonempty : p ≠ []) :
    Settled p fun z => readWordOrNumber (p ++ z) := by
  simp only [readWordOrNumber, find?_words_append whole nonempty]
  cases found : words.find? fun w => w.1.isPrefixOf p with
  | some w =>
    obtain ⟨word, v⟩ := w
    have front : word <+: p := List.isPrefixOf_iff_prefix.1 (by simpa using List.find?_some found)
    have mem := List.mem_of_find?_eq_some found
    have some := List.length_pos_of_ne_nil (oneLine_of_mem_words mem).2
    have length := front.length_le
    refine .value v (p.drop word.length) (List.drop_suffix _ p) ?_ fun z => ?_
    · rw [List.length_drop]
      dsimp only at some
      omega
    · dsimp only
      rw [List.drop_append_of_le_length length]
  | none =>
    obtain ⟨c, p, rfl⟩ := List.exists_cons_of_ne_nil nonempty
    by_cases minus : c = '-'
    · subst minus
      exact settled_readUnsigned (List.suffix_cons '-' p) whole.tail (whole.ne_nil (by decide)) true
    · have unsigned : ∀ s, readNumber (c :: s) = readUnsigned (c :: s) false (c :: s) := fun s =>
        readNumber.eq_2 _ fun t same => minus (List.cons.inj same).1
      simp only [List.cons_append, unsigned]
      exact settled_readUnsigned (List.suffix_refl _) whole nonempty false

theorem ne_of_isDigit {d : Char} (digit : isDigit c = true) (other : isDigit d = false) :
    c ≠ d := by
  rintro rfl
  exact absurd (digit.symm.trans other) (by decide)

theorem isBlank_of_isDigit (digit : isDigit c = true) : isBlank c = false := by
  have other (d : Char) (h : isDigit d = false) : decide (c = d) = false :=
    decide_eq_false (ne_of_isDigit digit h)
  rw [isBlank, other ' ' rfl, other '\t' rfl, other '\n' rfl, other '\r' rfl]
  rfl

/-- A document of more digits than a number may have is refused for the number. -/
theorem read_of_manyDigits (nonzero : s.head? ≠ some '0') (digits : ∀ c ∈ s, isDigit c = true)
    (long : Numeral.maxDigits < s.length) :
    Json.read (String.ofList s) = .error (.number (.tooManyDigits s.length)) := by
  obtain ⟨c, t, rfl⟩ := List.exists_cons_of_length_pos (Nat.zero_lt_of_lt long)
  have digit := digits c List.mem_cons_self
  have whole : takeWhole (c :: t) = (c :: t, []) := by
    rw [takeWhole.eq_2 _ fun u same => nonzero (congrArg List.head? same)]
    have ends : EndsNumber [] := fun d head => absurd head (by simp)
    simpa using span_isDigit digits ends
  have unsigned : readWordOrNumber (c :: t) =
      .error (.number (.tooManyDigits (c :: t).length)) := by
    rw [readWordOrNumber, find?_words digit (.inl rfl)]
    dsimp only
    rw [readNumber.eq_2 _ fun u same => ne_of_isDigit digit rfl (List.cons.inj same).1,
      readUnsigned_eq, whole, if_neg (List.cons_ne_nil c t)]
    dsimp only
    have decimal : ∀ d ∈ c :: t, Numeral.Radix.isDigit .decimal d = true :=
      fun d mem => isDigit_decimal (digits d mem)
    rw [numberOf, Numeral.read_of_long decimal long]
    rfl
  have noMark : (c :: t).head? ≠ some '\ufeff' := by
    intro front
    exact ne_of_isDigit digit rfl (Option.some_inj.1 front)
  rw [Json.read, String.toList_ofList, readDocument_value noMark,
    skipBlanks_of_not_blank (isBlank_of_isDigit digit), readValue_scalar (ne_of_isDigit digit rfl)
      (ne_of_isDigit digit rfl) (ne_of_isDigit digit rfl), unsigned]
  rfl

/-! ### Strings -/

theorem mem_take_append {n : Nat} (mem : c ∈ p.take n) (z : List Char) : c ∈ (p ++ z).take n :=
  ((List.prefix_append p z).take n).subset mem

theorem readHex4?_of_newline (newline : '\n' ∈ s.take 4) : readHex4? s = none := by
  have none : hexValue? '\n' = none := by decide
  unfold readHex4?
  split
  · next a b c d rest =>
    simp only [List.take_succ_cons, List.take_zero, List.mem_cons, List.not_mem_nil, or_false]
      at newline
    rcases newline with rfl | rfl | rfl | rfl <;> simp [none]
  · rfl

theorem readHex4?_append {digits : List Char} (four : digits.length = 4) (s : List Char) :
    readHex4? (digits ++ s) = (readHex4? digits).map fun (n, _) => (n, s) := by
  match digits, four with
  | [a, b, c, d], _ =>
    simp only [List.cons_append, List.nil_append, readHex4?]
    cases hexValue? a <;> cases hexValue? b <;> cases hexValue? c <;> cases hexValue? d <;> rfl

/-- The first four characters of whole lines are on the first line, or the line ends in them. -/
theorem IsWhole.four (whole : IsWhole p) (nonempty : p ≠ []) : '\n' ∈ p.take 4 ∨
    ∃ digits q, p = digits ++ q ∧ digits.length = 4 ∧ q ≠ [] := by
  by_cases newline : '\n' ∈ p.take 4
  · exact .inl newline
  · have more : p.drop 4 ≠ [] := by
      intro empty
      rw [List.take_of_length_le (List.drop_eq_nil_iff.1 empty)] at newline
      exact newline (whole.newline_mem nonempty)
    have long : 4 < p.length := List.drop_eq_nil_iff.not.1 more |> Nat.lt_of_not_le
    refine .inr ⟨p.take 4, p.drop 4, (List.take_append_drop 4 p).symm, ?_, more⟩
    exact List.length_take_of_le long.le

theorem readUnicodeEscape_of_newline (newline : '\n' ∈ s.take 4) :
    readUnicodeEscape s = .error (.malformed .unicodeEscape s) := by
  rw [readUnicodeEscape, readHex4?_of_newline newline]
  split <;> rfl

/-- The character of a numbered escape whose number is read, given the text after its digits. -/
def pairOf (high : Nat) (s : List Char) : Except Stop (Char × Nat) :=
  match isHighHalf high && isLongerThan escapeWidth s, s with
  | true, '\\' :: 'u' :: rest =>
    match readHex4? rest with
    | none => .error (.malformed .unicodeEscape rest)
    | some (low, _) =>
      if isLowHalf low then
        let n := 0x10000 + (high - 0xd800) * 0x400 + (low - 0xdc00)
        .ok (Char.ofNat n, unitWidth + escapeWidth)
      else .ok (unitChar high, unitWidth)
  | _, _ => .ok (unitChar high, unitWidth)

theorem readUnicodeEscape_append {digits : List Char} (four : digits.length = 4) (more : s ≠ []) :
    readUnicodeEscape (digits ++ s) = match readHex4? digits with
      | none => .error (.malformed .unicodeEscape (digits ++ s))
      | some (high, _) => pairOf high s := by
  have long : isLongerThan unitWidth (digits ++ s) = true := isLongerThan_append four more
  rw [readUnicodeEscape, long, readHex4?_append four]
  cases readHex4? digits <;> rfl

theorem pairOf_single {high : Nat}
    (single : (isHighHalf high && isLongerThan escapeWidth s) = false ∨ ∀ t, s ≠ '\\' :: 'u' :: t) :
    pairOf high s = .ok (unitChar high, unitWidth) := by
  unfold pairOf
  split
  · next rest both =>
    rcases single with none | other
    · exact absurd (none.symm.trans both) (by decide)
    · exact absurd rfl (other _)
  · rfl

theorem pairOf_second {high : Nat}
    (both : (isHighHalf high && isLongerThan escapeWidth ('\\' :: 'u' :: s)) = true) :
    pairOf high ('\\' :: 'u' :: s) = match readHex4? s with
      | none => .error (.malformed .unicodeEscape s)
      | some (low, _) =>
        if isLowHalf low then
          .ok (Char.ofNat (0x10000 + (high - 0xd800) * 0x400 + (low - 0xdc00)), 10)
        else .ok (unitChar high, 4) := by
  rw [pairOf]
  · cases readHex4? s <;> rfl
  · exact both

/-- If the line ends in the digits of the second escape, it depends on how long the text is whether
they are looked at. -/
theorem pairOf_of_newline (newline : '\n' ∈ s.take 4) (high : Nat) :
    pairOf high ('\\' :: 'u' :: s) = .error (.malformed .unicodeEscape s) ∨
      ∃ c, pairOf high ('\\' :: 'u' :: s) = .ok (c, 4) := by
  cases both : isHighHalf high && isLongerThan escapeWidth ('\\' :: 'u' :: s) with
  | false => exact .inr ⟨_, pairOf_single (.inl both)⟩
  | true =>
    left
    rw [pairOf_second both, readHex4?_of_newline newline]

/-- If there are four characters for the digits of the second escape, they decide. -/
theorem pairOf_of_digits {high : Nat} {digits : List Char} (first : isHighHalf high = true)
    (four : digits.length = 4) :
    (∀ s, s ≠ [] → pairOf high ('\\' :: 'u' :: (digits ++ s)) =
      .error (.malformed .unicodeEscape (digits ++ s))) ∨
      ∃ c width, width ≤ 10 ∧
        ∀ s, s ≠ [] → pairOf high ('\\' :: 'u' :: (digits ++ s)) = .ok (c, width) := by
  have length : ('\\' :: 'u' :: digits).length = escapeWidth := by
    rw [List.length_cons, List.length_cons, four]
    rfl
  have both (s) (more : s ≠ []) : (isHighHalf high &&
      isLongerThan escapeWidth ('\\' :: 'u' :: (digits ++ s))) = true := by
    have longer := isLongerThan_append length more
    rw [first, Bool.true_and]
    exact longer
  cases number : readHex4? digits with
  | none =>
    refine .inl fun s more => ?_
    rw [pairOf_second (both s more), readHex4?_append four, number]
    rfl
  | some answer =>
    obtain ⟨low, rest⟩ := answer
    by_cases pair : isLowHalf low = true
    · let c := Char.ofNat (0x10000 + (high - 0xd800) * 0x400 + (low - 0xdc00))
      refine .inr ⟨c, 10, le_rfl, fun s more => ?_⟩
      rw [pairOf_second (both s more), readHex4?_append four, number]
      exact if_pos pair
    · refine .inr ⟨unitChar high, 4, by decide, fun s more => ?_⟩
      rw [pairOf_second (both s more), readHex4?_append four, number]
      exact if_neg pair

/-- What is made of the text after a first half, given the lines with which it begins. -/
theorem pairOf_append (whole : IsWhole p) (nonempty : p ≠ []) (high : Nat) :
    (∃ c width, width < 4 + p.length ∧ ∀ z, pairOf high (p ++ z) = .ok (c, width)) ∨
      ∃ q, p = '\\' :: 'u' :: q ∧ q ≠ [] ∧ ∀ z,
        pairOf high (p ++ z) = .error (.malformed .unicodeEscape (q ++ z)) ∨
          '\n' ∈ q.take 4 ∧ ∃ c, pairOf high (p ++ z) = .ok (c, 4) := by
  by_cases second : isHighHalf high = true ∧ ∃ q, p = '\\' :: 'u' :: q
  · obtain ⟨first, q, rfl⟩ := second
    have more : q ≠ [] := whole.tail.ne_nil (by decide)
    rcases whole.tail.tail.four more with newline | ⟨digits, t, rfl, four, left⟩
    · refine .inr ⟨q, rfl, more, fun z => ?_⟩
      rcases pairOf_of_newline (mem_take_append newline z) high with refused | ok
      · exact .inl refused
      · exact .inr ⟨newline, ok⟩
    · have left' (z) : t ++ z ≠ [] := fun nothing => left (List.append_eq_nil_iff.1 nothing).1
      simp only [List.cons_append, List.append_assoc]
      rcases pairOf_of_digits first four with refused | ⟨c, width, small, reads⟩
      · refine .inr ⟨digits ++ t, rfl, more, fun z => .inl ?_⟩
        rw [List.append_assoc]
        exact refused _ (left' z)
      · refine .inl ⟨c, width, ?_, fun z => reads _ (left' z)⟩
        have some := List.length_pos_of_ne_nil left
        simp only [List.length_cons, List.length_append, four]
        omega
  · left
    refine ⟨unitChar high, 4, by simpa using List.length_pos_of_ne_nil nonempty, fun z => ?_⟩
    apply pairOf_single
    by_cases first : isHighHalf high = true
    · right
      intro t same
      obtain ⟨c, p, rfl⟩ := List.exists_cons_of_ne_nil nonempty
      obtain ⟨rfl, after⟩ := List.cons.inj same
      obtain ⟨d, p, rfl⟩ := List.exists_cons_of_ne_nil (whole.ne_nil (by decide))
      obtain ⟨rfl, -⟩ := List.cons.inj after
      exact second ⟨first, p, rfl⟩
    · left
      rw [Bool.eq_false_of_not_eq_true first, Bool.false_and]

/-- A numbered escape is read or refused on its line; only a second half that the line cuts short
may be left to the next escape, which it is as well. -/
theorem readUnicodeEscape_whole (whole : IsWhole p) (nonempty : p ≠ []) :
    (∃ c width, width < p.length ∧ ∀ z, readUnicodeEscape (p ++ z) = .ok (c, width)) ∨
      ∃ q, q <:+ p ∧ q ≠ [] ∧ ∀ z,
        readUnicodeEscape (p ++ z) = .error (.malformed .unicodeEscape (q ++ z)) ∨
          ∃ digits c, p = digits ++ '\\' :: 'u' :: q ∧ digits.length = 4 ∧ '\n' ∈ q.take 4 ∧
            readUnicodeEscape (p ++ z) = .ok (c, 4) := by
  rcases whole.four nonempty with newline | ⟨digits, q, rfl, four, more⟩
  · refine .inr ⟨p, List.suffix_refl p, nonempty, fun z => .inl ?_⟩
    exact readUnicodeEscape_of_newline (mem_take_append newline z)
  · have read (z) : readUnicodeEscape (digits ++ (q ++ z)) = _ :=
      readUnicodeEscape_append four fun nothing => more (List.append_eq_nil_iff.1 nothing).1
    simp only [List.append_assoc, read]
    cases readHex4? digits with
    | none =>
      refine .inr ⟨digits ++ q, List.suffix_refl _, nonempty, fun z => .inl ?_⟩
      rw [List.append_assoc]
    | some answer =>
      obtain ⟨high, rest⟩ := answer
      have within : q <:+ digits ++ q := List.suffix_append digits q
      rcases pairOf_append (whole.of_suffix within) more high with
        ⟨c, width, inside, reads⟩ | ⟨t, rfl, left, reads⟩
      · refine .inl ⟨c, width, ?_, reads⟩
        rwa [List.length_append, four]
      · refine .inr ⟨t, ?_, left, fun z => ?_⟩
        · exact List.IsSuffix.trans ⟨['\\', 'u'], rfl⟩ within
        · rcases reads z with refused | ⟨newline, c, ok⟩
          · exact .inl refused
          · exact .inr ⟨digits, c, rfl, four, newline, ok⟩

/-- A second half that the line cuts short is refused as the next escape. -/
theorem readStringFrom_cut {digits : List Char} (start done : List Char) (four : digits.length = 4)
    (newline : '\n' ∈ s.take 4)
    (ok : readUnicodeEscape (digits ++ '\\' :: 'u' :: s) = .ok (c, 4)) :
    readStringFrom start 0 done ('\\' :: 'u' :: digits ++ '\\' :: 'u' :: s) =
      .error (.malformed .unicodeEscape s) := by
  rw [← four] at ok
  rw [readStringFrom_numbered digits ok, readStringFrom_unicode,
    readUnicodeEscape_of_newline newline]
  rfl

/-- What is read of a string does not depend on the lines after its own. -/
theorem settled_readStringFrom (within : p <:+ start) (whole : IsWhole p) {skip : Nat}
    (more : skip < p.length) (done : List Char) :
    Settled start fun z => readStringFrom (start ++ z) skip done (p ++ z) := by
  induction p generalizing skip done with
  | nil => cases more
  | cons c p ih =>
    have rest := (List.suffix_cons c p).trans within
    have opened : start ≠ [] := by
      rintro rfl
      cases List.suffix_nil.1 within
    cases skip with
    | succ skip => exact ih rest whole.tail (Nat.lt_of_succ_lt_succ more) done
    | zero =>
      by_cases quote : c = '"'
      · subst quote
        simp only [List.cons_append, readStringFrom_quote]
        exact .value _ p rest within.length_le fun _ => rfl
      by_cases backslash : c = '\\'
      · subst backslash
        obtain ⟨e, s, rfl⟩ := List.exists_cons_of_ne_nil (whole.ne_nil (by decide))
        by_cases unicode : e = 'u'
        · subst unicode
          have left : s ≠ [] := whole.tail.ne_nil (by decide)
          have inner : s <:+ start := (List.suffix_cons 'u' s).trans rest
          rcases readUnicodeEscape_whole whole.tail.tail left with
            ⟨c, width, inside, reads⟩ | ⟨q, inside, some, reads⟩
          · simp only [List.cons_append, readStringFrom_unicode, reads]
            refine ih rest whole.tail ?_ (c :: done)
            rw [List.length_cons]
            omega
          · refine .malformed .unicodeEscape q (inside.trans inner) some fun z => ?_
            rcases reads z with refused | ⟨digits, c, rfl, four, newline, ok⟩
            · rw [List.cons_append, List.cons_append, readStringFrom_unicode, refused]
              rfl
            · rw [List.append_assoc] at ok
              have cut := readStringFrom_cut (start ++ z) done four (mem_take_append newline z) ok
              simpa using cut
        · simp only [List.cons_append, readStringFrom_escape _ done _ unicode]
          cases letter : escaped? e with
          | none => exact .malformed .escape start (List.suffix_refl start) opened fun _ => rfl
          | some c =>
            have other : e ≠ '\n' := by
              rintro rfl
              cases letter
            have left := List.length_pos_of_ne_nil (whole.tail.ne_nil other)
            exact ih rest whole.tail (Nat.succ_lt_succ left) (c :: done)
      simp only [List.cons_append, readStringFrom_char _ done _ quote backslash]
      by_cases control : c.toNat < 0x20
      · simp only [if_pos control]
        exact .malformed .control (c :: p) within (List.cons_ne_nil c p) fun _ => rfl
      · simp only [if_neg control]
        have other : c ≠ '\n' := by
          rintro rfl
          exact control (by decide)
        exact ih rest whole.tail (List.length_pos_of_ne_nil (whole.ne_nil other)) (c :: done)

theorem settled_readString (whole : IsWhole ('"' :: p)) :
    Settled ('"' :: p) fun z => readString ('"' :: p ++ z) (p ++ z) :=
  settled_readStringFrom (List.suffix_cons '"' p) whole.tail
    (List.length_pos_of_ne_nil (whole.ne_nil (by decide))) []

end PackPlan.Json
