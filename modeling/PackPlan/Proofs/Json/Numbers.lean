import Mathlib.Data.List.TakeDrop
import Mathlib.Data.List.TakeWhile
import PackPlan.Json.Printer
import PackPlan.Json.Reader
import PackPlan.Proofs.Numeral.ReadBack

/-!
# Written whole numbers read back

A whole number has no fraction and no exponent, so that what comes after it must not look
like one, nor go on with its digits.

## Main definitions

* `EndsNumber` — a text that does not go on with a number

## Main results

* `readUnsigned_toDigits` — the digits of a whole number read back
* `readWordOrNumber_decimalText` — so does a whole number
-/

namespace PackPlan.Json

open Numeral (isTooLong decimalText)

variable {c : Char} {n : Nat} {s rest : List Char}

/-- A text that does not go on with a number. -/
def EndsNumber (rest : List Char) : Prop :=
  ∀ c ∈ rest.head?, isDigit c = false ∧ c ≠ '.' ∧ c ≠ 'e' ∧ c ≠ 'E'

theorem EndsNumber.cons (digit : isDigit c = false) (point : c ≠ '.') (small : c ≠ 'e')
    (large : c ≠ 'E') : EndsNumber (c :: s) := by
  intro d head
  obtain rfl := Option.some_inj.1 head
  exact ⟨digit, point, small, large⟩

/-! ### Digits -/

theorem isDigit_of_mem_toDigits (mem : c ∈ Nat.toDigits 10 n) : isDigit c = true := by
  have digit := Nat.isDigit_of_mem_toDigits (by decide) (by decide) mem
  simpa [isDigit, Char.isDigit, Char.le_def] using digit

/-- The digits of a number that is not zero begin with none. -/
theorem exists_toDigits_eq_cons (positive : 0 < n) :
    ∃ c s, Nat.toDigits 10 n = c :: s ∧ c ≠ '0' := by
  induction n using Nat.strongRecOn with
  | ind n ih =>
    rw [Nat.toDigits_eq_if (by decide)]
    split
    · next below =>
      refine ⟨n.digitChar, [], rfl, fun zero => ?_⟩
      have value := Nat.toNat_digitChar_of_lt_ten below
      rw [zero] at value
      change 48 = 48 + n at value
      omega
    · obtain ⟨c, s, front, nonzero⟩ := ih (n / 10) (by omega) (by omega)
      exact ⟨c, s ++ [(n % 10).digitChar], by rw [front, List.cons_append], nonzero⟩

theorem span_isDigit (digits : ∀ c ∈ s, isDigit c = true) (ends : EndsNumber rest) :
    (s ++ rest).span isDigit = (s, rest) := by
  -- the digits end where the text no longer goes on with the number
  have stop : rest.takeWhile isDigit = [] ∧ rest.dropWhile isDigit = rest := by
    cases rest with
    | nil => exact ⟨rfl, rfl⟩
    | cons c rest =>
      have other : ¬ isDigit c = true := by rw [(ends c rfl).1]; simp
      exact ⟨List.takeWhile_cons_of_neg other, List.dropWhile_cons_of_neg other⟩
  rw [List.span_eq_takeWhile_dropWhile, List.takeWhile_append_of_pos digits,
    List.dropWhile_append_of_pos digits, stop.1, stop.2, List.append_nil]

theorem takeWhole_toDigits (ends : EndsNumber rest) :
    takeWhole (Nat.toDigits 10 n ++ rest) = (Nat.toDigits 10 n, rest) := by
  rcases Nat.eq_zero_or_pos n with rfl | positive
  · rfl
  · have digits : ∀ c ∈ Nat.toDigits 10 n, isDigit c = true :=
      fun c mem => isDigit_of_mem_toDigits mem
    obtain ⟨c, s, front, nonzero⟩ := exists_toDigits_eq_cons positive
    have spanned := span_isDigit digits ends
    rw [front] at spanned ⊢
    rw [← spanned, List.cons_append, takeWhole]
    rintro t same
    exact absurd (List.cons.inj same).1 nonzero

/-! ### Numbers -/

theorem takeFraction_eq (ends : EndsNumber rest) : takeFraction rest = (none, rest) := by
  cases rest with
  | nil => rfl
  | cons c rest =>
    rw [takeFraction]
    rintro t same
    exact (ends c rfl).2.1 (List.cons.inj same).1

theorem takeExponent_eq (ends : EndsNumber rest) : takeExponent rest = (none, rest) := by
  cases rest with
  | nil => rfl
  | cons c rest =>
    obtain ⟨-, -, small, large⟩ := ends c rfl
    rw [takeExponent, if_neg (not_or.2 ⟨small, large⟩)]

/-- The digits of a whole number read back. -/
theorem readUnsigned_toDigits (start : List Char) (negative : Bool)
    (short : isTooLong n = false) (ends : EndsNumber rest) :
    readUnsigned start negative (Nat.toDigits 10 n ++ rest) =
      .ok (.int (if negative then -n else n), rest) := by
  have value : Numeral.read .decimal (String.ofList (Nat.toDigits 10 n)) = .ok (n : Int) :=
    Numeral.read_decimalText (n := (n : Int)) short
  unfold readUnsigned
  rw [takeWhole_toDigits ends]
  split
  · next same => exact absurd (Prod.mk.inj same).1 Nat.toDigits_ne_nil
  · next same =>
    obtain ⟨rfl, rfl⟩ := Prod.mk.inj same
    rw [takeFraction_eq ends]
    dsimp only
    rw [takeExponent_eq ends]
    dsimp only
    rw [value]
    rfl

/-- No word begins with a digit, nor goes on with one after a minus. -/
theorem exists_front_of_mem_words {w : List Char × Value} (mem : w ∈ words) :
    ∃ d t, w.1 = d :: t ∧ isDigit d = false ∧
      (d = '-' → ∃ e u, t = e :: u ∧ isDigit e = false) := by
  simp only [words, List.mem_cons, List.not_mem_nil, or_false] at mem
  rcases mem with rfl | rfl | rfl | rfl | rfl | rfl
  · exact ⟨'n', _, rfl, rfl, fun minus => absurd minus (by decide)⟩
  · exact ⟨'t', _, rfl, rfl, fun minus => absurd minus (by decide)⟩
  · exact ⟨'f', _, rfl, rfl, fun minus => absurd minus (by decide)⟩
  · exact ⟨'N', _, rfl, rfl, fun minus => absurd minus (by decide)⟩
  · exact ⟨'I', _, rfl, rfl, fun minus => absurd minus (by decide)⟩
  · exact ⟨'-', _, rfl, rfl, fun _ => ⟨'I', _, rfl, rfl⟩⟩

theorem find?_words (digit : isDigit c = true) (front : s = c :: rest ∨ s = '-' :: c :: rest) :
    words.find? (fun w => w.1.isPrefixOf s) = none := by
  -- every word is told apart from the text by one of its first two characters
  have other : ∀ d : Char, isDigit d = false → (d == c) = false := by
    intro d nothing
    rw [beq_eq_false_iff_ne]
    rintro rfl
    exact absurd (nothing.symm.trans digit) (by simp)
  rw [List.find?_eq_none]
  intro w mem
  obtain ⟨d, t, word, nothing, minus⟩ := exists_front_of_mem_words mem
  rw [word]
  rcases front with rfl | rfl
  · rw [List.isPrefixOf_cons_cons, other d nothing]
    simp
  · by_cases same : d = '-'
    · obtain ⟨e, u, rfl, nothing⟩ := minus same
      rw [List.isPrefixOf_cons_cons, List.isPrefixOf_cons_cons, other e nothing]
      simp
    · rw [List.isPrefixOf_cons_cons, beq_eq_false_iff_ne.2 same]
      simp

theorem isDigit_toDigits_front (front : Nat.toDigits 10 n = c :: s) : isDigit c = true :=
  isDigit_of_mem_toDigits (front ▸ List.mem_cons_self)

theorem mem_decimalText {n : Int} (mem : c ∈ decimalText n) : c = '-' ∨ isDigit c = true := by
  cases n with
  | ofNat m => exact Or.inr (isDigit_of_mem_toDigits mem)
  | negSucc m => exact (List.mem_cons.1 mem).imp_right isDigit_of_mem_toDigits

theorem decimalText_ne_nil (n : Int) : decimalText n ≠ [] := Numeral.signed_ne_nil .decimal n

/-- A whole number reads back, whatever follows that does not go on with it. -/
theorem readWordOrNumber_decimalText {n : Int} (short : isTooLong n = false)
    (ends : EndsNumber rest) :
    readWordOrNumber (decimalText n ++ rest) = .ok (.int n, rest) := by
  cases n with
  | ofNat m =>
    obtain ⟨c, s, front⟩ := List.exists_cons_of_ne_nil (Nat.toDigits_ne_nil (n := m) (b := 10))
    have digit := isDigit_toDigits_front front
    have number := readUnsigned_toDigits (n := m) (Nat.toDigits 10 m ++ rest) false short ends
    change readWordOrNumber (Nat.toDigits 10 m ++ rest) = _
    rw [front] at number ⊢
    rw [readWordOrNumber, List.cons_append, find?_words digit (Or.inl rfl)]
    dsimp only
    rw [readNumber]
    · exact number
    · rintro t same
      rw [(List.cons.inj same).1] at digit
      exact absurd digit (by decide)
  | negSucc m =>
    obtain ⟨c, s, front⟩ :=
      List.exists_cons_of_ne_nil (Nat.toDigits_ne_nil (n := m + 1) (b := 10))
    have digit := isDigit_toDigits_front front
    have number := readUnsigned_toDigits (n := m + 1) ('-' :: (Nat.toDigits 10 (m + 1) ++ rest))
      true short ends
    change readWordOrNumber ('-' :: (Nat.toDigits 10 (m + 1) ++ rest)) = _
    rw [front] at number ⊢
    rw [readWordOrNumber, List.cons_append, find?_words digit (Or.inr rfl)]
    exact number

end PackPlan.Json
