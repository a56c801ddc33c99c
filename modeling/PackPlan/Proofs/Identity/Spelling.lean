import Mathlib.Data.List.Infix
import Mathlib.Data.List.TakeDrop
import PackPlan.Proofs.Identity

/-!
# Spellings of a guid

Every spelling of a guid that is read comes to the one written form of its number. Which number
that is can be told from the spelling directly: without the words that name the scheme, the braces
around what is left and the hyphens there are 32 characters, which are a hexadecimal number. The
braces that are stripped before the words are looked for make no difference, as no word has one.

## Main definitions

* `Guid.format?` — the written form of a spelling
* `Guid.digitsIn`, `Guid.denoted?` — the digits in a spelling, and the number that it denotes

## Main results

* `Guid.bareDigits_eq_digitsIn` — braces may be stripped before or after the words are erased
* `Guid.read?_eq_some_iff` — a spelling is read as the guid whose number it denotes
* `AssetId.text_canonical` — written ids read back and differ, and two spellings come to one
  written form exactly if they denote one number
-/

namespace PackPlan

/-! ### Text between marks -/

namespace Text

variable {drop : Char → Bool} {front back s : List Char}

/-- Trimmed text is what stands between two runs of characters that are trimmed away. -/
theorem exists_eq_append_trimBy (drop : Char → Bool) (s : List Char) :
    ∃ front back, s = front ++ trimBy drop s ++ back ∧ (∀ c ∈ front, drop c = true) ∧
      ∀ c ∈ back, drop c = true := by
  refine ⟨s.takeWhile drop, ((s.dropWhile drop).reverse.takeWhile drop).reverse, ?_, ?_, ?_⟩
  · rw [List.append_assoc, trimBy, ← List.reverse_append, List.takeWhile_append_dropWhile,
      List.reverse_reverse, List.takeWhile_append_dropWhile]
  · exact fun c mem => List.mem_takeWhile_imp mem
  · exact fun c mem => List.mem_takeWhile_imp (List.mem_reverse.1 mem)

/-- Characters around a text that are trimmed away make no difference to what is left of it. -/
theorem trimBy_append (before : ∀ c ∈ front, drop c = true) (after : ∀ c ∈ back, drop c = true) :
    trimBy drop (front ++ s ++ back) = trimBy drop s := by
  have after' : ∀ c ∈ back.reverse, drop c = true := fun c mem => after c (List.mem_reverse.1 mem)
  rw [trimBy, List.append_assoc, List.dropWhile_append_of_pos before, List.dropWhile_append]
  split
  · next nothing =>
    rw [List.dropWhile_eq_nil_iff.2 after, trimBy, List.isEmpty_iff.1 nothing]
  · rw [List.reverse_append, List.dropWhile_append_of_pos after', trimBy]

end Text

namespace Guid

variable {word front back s t : List Char} {skip : Nat} {g : Guid} {spelling written : String}

/-! ### Words between braces -/

/-- A word that has none of the characters that follow a text does not reach into them. -/
theorem isPrefixOf_append (apart : ∀ c ∈ back, c ∉ word) :
    word.isPrefixOf (s ++ back) = word.isPrefixOf s := by
  rw [Bool.eq_iff_iff, List.isPrefixOf_iff_prefix, List.isPrefixOf_iff_prefix]
  constructor
  · intro within
    rcases List.prefix_or_prefix_of_prefix within (List.prefix_append s back) with inside | beyond
    · exact inside
    · -- what is left of the word beyond the text would begin with a character behind it
      obtain ⟨more, rfl⟩ := beyond
      cases more with
      | nil => rw [List.append_nil]
      | cons c more =>
        have there : c ∈ back :=
          ((List.prefix_append_right_inj s).1 within).subset List.mem_cons_self
        exact absurd (List.mem_append_right s List.mem_cons_self) (apart c there)
  · intro within
    exact within.trans (List.prefix_append s back)

theorem eraseWord_of_apart (nonempty : word ≠ []) (apart : ∀ c ∈ s, c ∉ word) :
    eraseWord word s = s := by
  obtain ⟨c, word, rfl⟩ := List.exists_cons_of_ne_nil nonempty
  exact eraseWord_eq_self fun mem => apart c mem List.mem_cons_self

theorem eraseWordFrom_append (nonempty : word ≠ []) (apart : ∀ c ∈ back, c ∉ word)
    (within : skip ≤ s.length) :
    eraseWordFrom word skip (s ++ back) = eraseWordFrom word skip s ++ back := by
  induction s generalizing skip with
  | nil =>
    obtain rfl := Nat.le_zero.1 within
    exact eraseWord_of_apart nonempty apart
  | cons c s ih =>
    rw [List.length_cons] at within
    cases skip with
    | succ skip => exact ih (Nat.le_of_succ_le_succ within)
    | zero =>
      rw [List.cons_append, eraseWordFrom, eraseWordFrom, ← List.cons_append,
        isPrefixOf_append apart]
      split
      · next found =>
        -- the rest of the word is part of the text that is left
        have length := (List.isPrefixOf_iff_prefix.1 found).length_le
        rw [List.length_cons] at length
        exact ih (by omega)
      · rw [ih (Nat.zero_le _), List.cons_append]

theorem eraseWord_append_left (nonempty : word ≠ []) (apart : ∀ c ∈ front, c ∉ word) :
    eraseWord word (front ++ s) = front ++ eraseWord word s := by
  obtain ⟨d, word, rfl⟩ := List.exists_cons_of_ne_nil nonempty
  induction front with
  | nil => rfl
  | cons c front ih =>
    have other : d ≠ c := fun same => apart c List.mem_cons_self (same ▸ List.mem_cons_self)
    rw [eraseWord, List.cons_append, eraseWordFrom, if_neg, List.cons_append]
    · exact congrArg (c :: ·) (ih fun c mem => apart c (List.mem_cons_of_mem _ mem))
    · rw [List.isPrefixOf_cons_cons, beq_false_of_ne other]
      simp

/-- A word is erased between characters that it does not have as it is without them. -/
theorem eraseWord_append (nonempty : word ≠ []) (before : ∀ c ∈ front, c ∉ word)
    (after : ∀ c ∈ back, c ∉ word) :
    eraseWord word (front ++ s ++ back) = front ++ eraseWord word s ++ back := by
  rw [List.append_assoc, eraseWord_append_left nonempty before, eraseWord,
    eraseWordFrom_append nonempty after (Nat.zero_le _), eraseWord, List.append_assoc]

/-! ### The number in a spelling -/

/-- The digits in a spelling: the words that name the scheme, the braces around what is left and
all hyphens do not count. -/
def digitsIn (s : List Char) : List Char :=
  let s := eraseWord "uuid:".toList (eraseWord "urn:".toList s)
  (Text.trimBy isBrace s).filter (· ≠ '-')

/-- The number that the digits in a spelling denote, if there are 32 of them and it has no more
than 128 bits. -/
def numberIn? (s : List Char) : Option Nat :=
  match Numeral.read .hexadecimal (String.ofList (digitsIn s)) with
  | .ok n =>
    if (digitsIn s).length = 32 ∧ 0 ≤ n ∧ n.toNat < Nat.pow 2 128 then some n.toNat else none
  | .error _ => none

/-- The number that a spelling denotes, blanks around it not counting; a blank one denotes zero. -/
def denoted? (spelling : String) : Option Nat :=
  let s := Text.trim spelling.toList
  if s = [] then some 0 else numberIn? s

/-- The written form of the guid that a spelling denotes. -/
def format? (spelling : String) : Option String := (read? spelling).map text

theorem not_mem_of_isBrace {c : Char} (brace : isBrace c = true) :
    c ∉ "urn:".toList ∧ c ∉ "uuid:".toList := by
  rw [isBrace, Bool.or_eq_true, decide_eq_true_eq, decide_eq_true_eq] at brace
  rcases brace with rfl | rfl <;> decide

/-- No word has a brace, so that braces may be stripped before the words are erased. -/
theorem bareDigits_eq_digitsIn (s : List Char) : bareDigits s = digitsIn s := by
  obtain ⟨front, back, same, before, after⟩ := Text.exists_eq_append_trimBy isBrace s
  unfold bareDigits digitsIn
  dsimp only
  generalize Text.trimBy isBrace s = inner at same
  rw [same, eraseWord_append (by decide) (fun c mem => (not_mem_of_isBrace (before c mem)).1)
      fun c mem => (not_mem_of_isBrace (after c mem)).1,
    eraseWord_append (by decide) (fun c mem => (not_mem_of_isBrace (before c mem)).2)
      fun c mem => (not_mem_of_isBrace (after c mem)).2, Text.trimBy_append before after]

theorem eq_iff_value {h : Guid} : g = h ↔ g.value = h.value := by
  cases g
  cases h
  rw [Guid.mk.injEq]

theorem ofBareDigits?_bareDigits : ofBareDigits? (bareDigits s) = some g ↔
    numberIn? s = some g.value := by
  rw [bareDigits_eq_digitsIn, ofBareDigits?, numberIn?]
  by_cases length : (digitsIn s).length = 32
  · rw [if_neg (not_not.2 length)]
    cases Numeral.read .hexadecimal (String.ofList (digitsIn s)) with
    | error cause => simp
    | ok n =>
      by_cases fits : 0 ≤ n ∧ n.toNat < Nat.pow 2 128
      · simp only [length, fits, eq_iff_value, and_self, dite_true, if_true, Option.some.injEq]
      · have beyond : ¬ ((digitsIn s).length = 32 ∧ 0 ≤ n ∧ n.toNat < Nat.pow 2 128) :=
          fun whole => fits whole.2
        dsimp only
        rw [dif_neg fits, if_neg beyond]
        simp
  · rw [if_pos length]
    cases Numeral.read .hexadecimal (String.ofList (digitsIn s)) with
    | error cause => simp
    | ok n => simp [length]

/-- A spelling is read as the guid whose number it denotes. -/
theorem read?_eq_some_iff : read? spelling = some g ↔ denoted? spelling = some g.value := by
  unfold read? denoted?
  dsimp only
  by_cases blank : Text.trim spelling.toList = []
  · simp [blank, nil, eq_iff_value]
  · rw [if_neg (by simpa using blank), if_neg blank, ofBareDigits?_bareDigits]

theorem lt_of_denoted? {n : Nat} (denoted : denoted? spelling = some n) : n < Nat.pow 2 128 := by
  unfold denoted? at denoted
  dsimp only at denoted
  split at denoted
  · obtain rfl := Option.some.inj denoted
    exact nil.value_lt
  · unfold numberIn? at denoted
    split at denoted
    · split at denoted
      · next fits =>
        obtain rfl := Option.some.inj denoted
        exact fits.2.2
      · cases denoted
    · cases denoted

/-- The number that a spelling denotes is that of the guid as which it is read, if it is. -/
theorem map_value_read? (spelling : String) :
    (read? spelling).map Guid.value = denoted? spelling := by
  cases denoted : denoted? spelling with
  | some n =>
    have found : read? spelling = some ⟨n, lt_of_denoted? denoted⟩ := read?_eq_some_iff.2 denoted
    rw [found, Option.map_some]
  | none =>
    cases found : read? spelling with
    | none => rfl
    | some g =>
      rw [read?_eq_some_iff, denoted] at found
      cases found

theorem text_injective : Function.Injective text := fun _ _ same =>
  eq_of_textChars (String.ofList_injective same)

theorem format?_eq_format? (s t : String) : format? s = format? t ↔ denoted? s = denoted? t := by
  have value_injective : Function.Injective Guid.value := fun _ _ same => eq_iff_value.2 same
  rw [← map_value_read?, ← map_value_read?, (Option.map_injective value_injective).eq_iff]
  exact (Option.map_injective text_injective).eq_iff

/-- What is written is left as it is. -/
theorem format?_of_format? (formatted : format? spelling = some written) :
    format? written = some written := by
  obtain ⟨g, -, rfl⟩ := Option.map_eq_some_iff.1 formatted
  rw [format?, read?_text, Option.map_some]

theorem isSome_format? (spelling : String) :
    (format? spelling).isSome = (denoted? spelling).isSome := by
  rw [← map_value_read?, format?, Option.isSome_map, Option.isSome_map]

end Guid

namespace AssetId

/-- The written form of an id is read as this id, whatever its sub id, and is that of no other. A
spelling of a guid is accepted exactly if it denotes a number; what it is formatted to stays as it
is when it is formatted again, and two accepted spellings are formatted alike exactly if they
denote the same number. -/
theorem text_canonical :
    (∀ a : AssetId, read a.text = .ok a) ∧ (∀ a b : AssetId, a.text = b.text → a = b) ∧
      (∀ spelling, (Guid.format? spelling).isSome = (Guid.denoted? spelling).isSome) ∧
      (∀ spelling written, Guid.format? spelling = some written →
        Guid.format? written = some written) ∧
      ∀ s t x y, Guid.format? s = some x → Guid.format? t = some y →
        (x = y ↔ Guid.denoted? s = Guid.denoted? t) := by
  refine ⟨read_text, fun _ _ same => eq_of_text same, Guid.isSome_format?,
    fun _ _ formatted => Guid.format?_of_format? formatted, ?_⟩
  intro s t x y first second
  rw [← Guid.format?_eq_format?, first, second, Option.some_inj]

/-- An id with a guid of few digits and a negative sub id. -/
def spelled : AssetId := ⟨⟨0xa1, by decide⟩, -31⟩

/-- The id is read from a text with blanks and a mark, and made from a guid with the words that name
a scheme; of two other spellings of the guid one has a mark and underscores. -/
theorem text_canonical_spelledIds :
    read "  \x7b0000000000000000000000000000-00a1\x7d : -0X1_f " = .ok spelled ∧
      make "urn:uuid:\x7b0000000000000000000000000000-00a1\x7d" (-31) = .ok spelled ∧
      read spelled.text = .ok spelled ∧
      Guid.format? "0x_00000000000000000000000000a_1" = some spelled.guid.text ∧
      Guid.format? "\x7b000000000000000000000000000000A1" = some spelled.guid.text ∧
      Guid.denoted? "0x_00000000000000000000000000a_1" =
        Guid.denoted? "\x7b000000000000000000000000000000A1" := by
  obtain ⟨reads, -, -, -, alike⟩ := text_canonical
  have marked : Guid.format? "0x_00000000000000000000000000a_1" = some spelled.guid.text := by
    decide +kernel
  have braced : Guid.format? "\x7b000000000000000000000000000000A1" = some spelled.guid.text := by
    decide +kernel
  exact ⟨by decide +kernel, by decide +kernel, reads _, marked, braced,
    (alike _ _ _ _ marked braced).1 rfl⟩

end AssetId

end PackPlan
