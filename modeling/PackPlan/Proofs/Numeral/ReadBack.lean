import Mathlib.Algebra.Ring.Int.Defs
import Mathlib.Algebra.Ring.Nat
import Mathlib.Data.List.Basic
import Mathlib.Data.List.TakeWhile
import PackPlan.Numeral.Reader

/-!
# Written numbers read back

The reader of numbers takes much that is never written: blanks, signs, marks, underscores,
the digits of other scripts. On a run of plain digits it does nothing but sum them up, so
that a number that is written is the number that is read, as long as it is not too long for
its radix.

## Main results

* `read_of_digits`, `read_of_long` — a run of digits denotes their value, if it is not too long
* `digitsValue_toDigits` — the digits of a number have its value
* `digitsValue_hexPadded` — so do hexadecimal digits with leading zeros
* `read_decimalText`, `read_hexText` — an integer that can be written reads back
* `eq_of_decimalText`, `eq_of_hexText` — distinct integers have distinct texts
* `isTooLong_of_read` — a decimal number that is read can be written
-/

namespace PackPlan.Numeral

variable {radix : Radix} {c : Char} {run s : List Char} {n : Nat}

/-! ### Digits -/

/-- A digit is one of the ASCII digits or of the first six letters. -/
theorem toNat_of_isDigit (digit : radix.isDigit c = true) :
    48 ≤ c.toNat ∧ c.toNat ≤ 57 ∨ 97 ≤ c.toNat ∧ c.toNat ≤ 102 ∨ 65 ≤ c.toNat ∧ c.toNat ≤ 70 := by
  have base : radix.base ≤ 16 := by cases radix <;> decide
  -- the bounds on characters become bounds on their code points
  simp only [Radix.isDigit, glyphValue?, Char.le_def, UInt32.le_iff_toNat_le] at digit
  change (if 48 ≤ c.toNat ∧ c.toNat ≤ 57 then some (c.toNat - 48)
    else if 97 ≤ c.toNat ∧ c.toNat ≤ 122 then some (c.toNat - 97 + 10)
    else if 65 ≤ c.toNat ∧ c.toNat ≤ 90 then some (c.toNat - 65 + 10) else none).any _ = true
    at digit
  split at digit
  · omega
  · split at digit
    · simp only [Option.any_some, decide_eq_true_eq] at digit
      omega
    · split at digit
      · simp only [Option.any_some, decide_eq_true_eq] at digit
        omega
      · simp at digit

/-- No digit is a character that a number is made of otherwise. -/
theorem ne_of_isDigit (digit : radix.isDigit c = true) {d : Char}
    (other : d.toNat < 48 ∨ 57 < d.toNat ∧ d.toNat < 65 ∨ 70 < d.toNat ∧ d.toNat < 97 ∨
      102 < d.toNat) : c ≠ d := by
  rintro rfl
  have := toNat_of_isDigit digit
  omega

theorem plainChar_of_isDigit (digit : radix.isDigit c = true) : plainChar c = c := by
  have := toNat_of_isDigit digit
  rw [plainChar, if_pos (by omega)]

theorem isSpace_of_isDigit (digit : radix.isDigit c = true) : isSpace c = false := by
  have range := toNat_of_isDigit digit
  have high : ¬ c ≤ '\r' := by
    rw [Char.le_def, UInt32.le_iff_toNat_le]
    change ¬ c.toNat ≤ 13
    omega
  rw [isSpace, decide_eq_false (ne_of_isDigit digit (by decide)), decide_eq_false high]
  simp

/-! ### Runs of digits -/

theorem takeSign_of_isDigit (digit : radix.isDigit c = true) :
    takeSign (c :: s) = (false, c :: s) := by
  have minus : c ≠ '-' := ne_of_isDigit digit (by decide)
  have plus : c ≠ '+' := ne_of_isDigit digit (by decide)
  unfold takeSign
  split
  · next same => exact absurd (List.cons.inj same).1 minus
  · next same => exact absurd (List.cons.inj same).1 plus
  · rfl

/-- No run of digits begins with the mark of a hexadecimal number. -/
theorem dropMarker_of_digits (digits : ∀ c ∈ run, radix.isDigit c = true) :
    dropMarker radix run = run := by
  unfold dropMarker
  split
  · next x rest =>
    -- the mark is a zero and a letter, and the letter is no digit
    have digit : Radix.isDigit .hexadecimal x = true := digits x (by simp)
    rw [if_neg]
    rintro (rfl | rfl)
    · exact ne_of_isDigit digit (by decide) rfl
    · exact ne_of_isDigit digit (by decide) rfl
  · rfl

theorem splitAt_of_not_mem (absent : c ∉ s) : Text.splitAt c s = [s] := by
  induction s with
  | nil => rfl
  | cons d s ih =>
    rw [List.mem_cons, not_or] at absent
    rw [Text.splitAt_cons, if_neg (Ne.symm absent.1), ih absent.2]
    rfl

/-- A run of digits has their value for its magnitude, if there are not too many of them. -/
theorem readMagnitude_run {source : String} (nonempty : run ≠ [])
    (digits : ∀ c ∈ run, radix.isDigit c = true) : readMagnitude radix source run =
      if radix = .decimal ∧ maxDigits < run.length then .error (.tooManyDigits run.length)
      else .ok (digitsValue radix run) := by
  have part : ∀ c ∈ run, (radix.isDigit c || c = '_') = true := by
    intro c mem
    rw [digits c mem, Bool.true_or]
  have spaced : isSpaced run = true := by
    have absent : '_' ∉ run := fun mem => ne_of_isDigit (digits '_' mem) (by decide) rfl
    rw [isSpaced, splitAt_of_not_mem absent]
    simpa using nonempty
  have all : run.filter (· ≠ '_') = run := by
    rw [List.filter_eq_self]
    intro c mem
    rw [decide_eq_true_eq]
    exact ne_of_isDigit (digits c mem) (by decide)
  unfold readMagnitude
  simp only [List.takeWhile_eq_self_iff.2 part, List.dropWhile_eq_nil_iff.2 part, all, spaced]
  simp

theorem not_tooLong_of_short (short : radix = .decimal → run.length ≤ maxDigits) :
    ¬ (radix = .decimal ∧ maxDigits < run.length) := by
  rintro ⟨decimal, long⟩
  exact absurd (short decimal) (Nat.not_le.2 long)

theorem read_run (nonempty : run ≠ []) (digits : ∀ c ∈ run, radix.isDigit c = true) :
    read radix (String.ofList run) =
      if radix = .decimal ∧ maxDigits < run.length then .error (.tooManyDigits run.length)
      else .ok (digitsValue radix run : Int) := by
  have plain : run.map plainChar = run := by
    rw [List.map_congr_left fun c mem => plainChar_of_isDigit (digits c mem), List.map_id']
  obtain ⟨c, s, rfl⟩ := List.exists_cons_of_ne_nil nonempty
  have digit := digits c (by simp)
  have front : (c :: s).dropWhile isSpace = c :: s := by
    rw [List.dropWhile_cons_of_neg]
    rw [isSpace_of_isDigit digit]
    simp
  unfold read
  rw [String.toList_ofList, plain, front, takeSign_of_isDigit digit]
  dsimp only
  rw [dropMarker_of_digits digits, readMagnitude_run nonempty digits]
  split <;> rfl

/-- A run of digits denotes their value. -/
theorem read_of_digits (nonempty : run ≠ []) (digits : ∀ c ∈ run, radix.isDigit c = true)
    (short : radix = .decimal → run.length ≤ maxDigits) :
    read radix (String.ofList run) = .ok (digitsValue radix run : Int) := by
  rw [read_run nonempty digits, if_neg (not_tooLong_of_short short)]

/-- A run of more decimal digits than there may be is refused for its length. -/
theorem read_of_long (digits : ∀ c ∈ run, Radix.isDigit .decimal c = true)
    (long : maxDigits < run.length) :
    read .decimal (String.ofList run) = .error (.tooManyDigits run.length) := by
  have nonempty : run ≠ [] := List.ne_nil_of_length_pos (Nat.zero_lt_of_lt long)
  rw [read_run nonempty digits, if_pos ⟨rfl, long⟩]

/-- A run of digits after a minus denotes the number below zero. -/
theorem read_of_minus (nonempty : run ≠ []) (digits : ∀ c ∈ run, radix.isDigit c = true)
    (short : radix = .decimal → run.length ≤ maxDigits) :
    read radix (String.ofList ('-' :: run)) = .ok (-(digitsValue radix run : Int)) := by
  have plain : ('-' :: run).map plainChar = '-' :: run := by
    rw [List.map_cons, List.map_congr_left fun c mem => plainChar_of_isDigit (digits c mem),
      List.map_id']
    rfl
  have sign : takeSign ('-' :: run) = (true, run) := rfl
  unfold read
  rw [String.toList_ofList, plain, List.dropWhile_cons_of_neg (by decide), sign]
  dsimp only
  rw [dropMarker_of_digits digits, readMagnitude_run nonempty digits,
    if_neg (not_tooLong_of_short short)]
  rfl

/-! ### Written digits -/

/-- The digit of a number below the base has this number for its value. -/
theorem glyphValue?_digitChar {d : Nat} (below : d < 16) : glyphValue? d.digitChar = some d := by
  revert d
  decide

theorem base_le (radix : Radix) : radix.base ≤ 16 := by
  cases radix <;> decide

theorem one_lt_base (radix : Radix) : 1 < radix.base := by
  cases radix <;> decide

theorem isDigit_digitChar (radix : Radix) {d : Nat} (below : d < radix.base) :
    radix.isDigit d.digitChar = true := by
  rw [Radix.isDigit, glyphValue?_digitChar (Nat.lt_of_lt_of_le below (base_le radix))]
  exact decide_eq_true below

/-- One more digit at the end counts once, and those before it count as much more as the
base says. -/
theorem digitsValue_append_digitChar {d : Nat} (below : d < radix.base) :
    digitsValue radix (run ++ [d.digitChar]) = digitsValue radix run * radix.base + d := by
  have digit : d.digitChar ≠ '_' := ne_of_isDigit (isDigit_digitChar radix below) (by decide)
  rw [digitsValue, List.foldl_append, List.foldl_cons, List.foldl_nil, if_neg digit,
    glyphValue?_digitChar (Nat.lt_of_lt_of_le below (base_le radix))]
  rfl

/-- What is written in a base are digits of the base. -/
theorem isDigit_of_mem_toDigits (radix : Radix) (mem : c ∈ Nat.toDigits radix.base n) :
    radix.isDigit c = true := by
  have one := one_lt_base radix
  induction n using Nat.strongRecOn with
  | ind n ih =>
    rw [Nat.toDigits_eq_if one] at mem
    split at mem
    · next below =>
      rw [List.mem_singleton] at mem
      exact mem ▸ isDigit_digitChar radix below
    · next big =>
      rcases List.mem_append.1 mem with front | last
      · exact ih (n / radix.base) (Nat.div_lt_self (by omega) one) front
      · rw [List.mem_singleton] at last
        exact last ▸ isDigit_digitChar radix (Nat.mod_lt n (Nat.zero_lt_of_lt one))

/-- The digits of a number have its value. -/
theorem digitsValue_toDigits (radix : Radix) (n : Nat) :
    digitsValue radix (Nat.toDigits radix.base n) = n := by
  have one := one_lt_base radix
  induction n using Nat.strongRecOn with
  | ind n ih =>
    rw [Nat.toDigits_eq_if one]
    split
    · next below =>
      rw [← List.nil_append [n.digitChar], digitsValue_append_digitChar below, digitsValue,
        List.foldl_nil, Nat.zero_mul, Nat.zero_add]
    · next big =>
      rw [digitsValue_append_digitChar (Nat.mod_lt n (Nat.zero_lt_of_lt one)),
        ih (n / radix.base) (Nat.div_lt_self (by omega) one)]
      exact Nat.div_add_mod' n radix.base

/-! ### Hexadecimal digits with leading zeros -/

theorem hexPadded_succ (width n : Nat) :
    Text.hexPadded (width + 1) n = Text.hexPadded width (n / 16) ++ [(n % 16).digitChar] := by
  rw [Text.hexPadded, List.range_succ, List.map_append, Text.hexPadded]
  -- the exponents count down: with one more digit each is one higher, and the last is zero
  congr 1
  · refine List.map_congr_left fun i mem => ?_
    have inside : i < width := List.mem_range.1 mem
    have exponent : width + 1 - 1 - i = width - 1 - i + 1 := by omega
    rw [exponent, Nat.div_div_eq_div_mul]
    change (n / 16 ^ (width - 1 - i + 1) % 16).digitChar =
      (n / (16 * 16 ^ (width - 1 - i)) % 16).digitChar
    rw [Nat.pow_succ, Nat.mul_comm]
  · rw [List.map_cons, List.map_nil, Nat.add_sub_cancel, Nat.sub_self]
    change [(n / 1 % 16).digitChar] = _
    rw [Nat.div_one]

theorem length_hexPadded (width n : Nat) : (Text.hexPadded width n).length = width := by
  rw [Text.hexPadded, List.length_map, List.length_range]

theorem digitsValue_hexPadded (width n : Nat) :
    digitsValue .hexadecimal (Text.hexPadded width n) = n % 16 ^ width := by
  induction width generalizing n with
  | zero => rw [Nat.pow_zero, Nat.mod_one]; rfl
  | succ width ih =>
    have below : n % 16 < Radix.base .hexadecimal := Nat.mod_lt n (by decide)
    rw [hexPadded_succ, digitsValue_append_digitChar below, ih, Nat.pow_succ', Nat.mod_mul]
    exact (Nat.add_comm _ _).trans (congrArg _ (Nat.mul_comm _ _))

/-! ### Integers -/

theorem isTooLong_eq_false {n : Int} (width : Nat) (fits : width ≤ maxDigits)
    (below : n.natAbs < Nat.pow 10 width) : isTooLong n = false := by
  -- for any bound, so that the power of the real one is not evaluated
  have grows : ∀ m, width ≤ m → Nat.pow 10 width ≤ Nat.pow 10 m :=
    fun m => Nat.pow_le_pow_right (by decide)
  rw [isTooLong, decide_eq_false_iff_not, Nat.not_le]
  exact Nat.lt_of_lt_of_le below (grows maxDigits fits)

theorem isTooLong_of_lt_pow {n : Int} (natural : 0 ≤ n) (below : n < 10 ^ maxDigits) :
    isTooLong n = false := by
  refine isTooLong_eq_false maxDigits le_rfl ?_
  generalize maxDigits = width at below ⊢
  rw [← Int.natAbs_of_nonneg natural] at below
  exact_mod_cast below

/-- A number of at most ten digits is below the ceiling. -/
theorem lt_pow_of_lt {n : Int} (small : n < 10 ^ 10) : n < 10 ^ maxDigits := by
  -- for any bound, so that the power of the real one is not evaluated
  have grows : ∀ m, 10 ≤ m → (10 : Int) ^ 10 ≤ 10 ^ m := fun m wide => by
    exact_mod_cast Nat.pow_le_pow_right (by decide : 0 < 10) wide
  exact Int.lt_of_lt_of_le small (grows maxDigits (by decide))

theorem decimal?_eq_some {n : Int} (short : isTooLong n = false) :
    decimal? n = some (String.ofList (decimalText n)) := by
  rw [decimal?, short]
  exact if_neg Bool.false_ne_true

theorem length_toDigits_le {width : Nat} (wide : 0 < width) (below : n < Nat.pow 10 width) :
    (Nat.toDigits 10 n).length ≤ width :=
  (Nat.length_toDigits_le_iff (by decide) wide).2 below

/-- An integer reads back, in decimal if it can be written there. -/
theorem read_signed (radix : Radix) {n : Int} (short : radix = .decimal → isTooLong n = false) :
    read radix (String.ofList (signed (Nat.toDigits radix.base) n)) = .ok n := by
  have digits : ∀ m : Nat, ∀ c ∈ Nat.toDigits radix.base m, radix.isDigit c = true :=
    fun m c mem => isDigit_of_mem_toDigits radix mem
  have fits : radix = .decimal → (Nat.toDigits radix.base n.natAbs).length ≤ maxDigits := by
    rintro rfl
    have few := short rfl
    rw [isTooLong, decide_eq_false_iff_not, Nat.not_le] at few
    exact length_toDigits_le (by decide) few
  cases n with
  | ofNat m =>
    rw [signed, read_of_digits Nat.toDigits_ne_nil (digits m) fits, digitsValue_toDigits radix m]
    rfl
  | negSucc m =>
    rw [signed, read_of_minus Nat.toDigits_ne_nil (digits (m + 1)) fits,
      digitsValue_toDigits radix (m + 1)]
    rfl

/-- A decimal number that can be written reads back. -/
theorem read_decimalText {n : Int} (short : isTooLong n = false) :
    read .decimal (String.ofList (decimalText n)) = .ok n :=
  read_signed .decimal fun _ => short

/-- A hexadecimal number reads back, however long it is. -/
theorem read_hexText (n : Int) : read .hexadecimal (String.ofList (hexText n)) = .ok n :=
  read_signed .hexadecimal nofun

theorem signed_ne_nil (radix : Radix) (n : Int) : signed (Nat.toDigits radix.base) n ≠ [] := by
  cases n with
  | ofNat m => exact Nat.toDigits_ne_nil
  | negSucc m => exact List.cons_ne_nil _ _

theorem mem_signed (radix : Radix) {n : Int} (mem : c ∈ signed (Nat.toDigits radix.base) n) :
    c = '-' ∨ radix.isDigit c = true := by
  cases n with
  | ofNat m => exact .inr (isDigit_of_mem_toDigits radix mem)
  | negSucc m => exact (List.mem_cons.1 mem).imp_right (isDigit_of_mem_toDigits radix)

/-- The texts of two integers in one radix differ, whatever their length. -/
theorem eq_of_signed (radix : Radix) {m n : Int}
    (same : signed (Nat.toDigits radix.base) m = signed (Nat.toDigits radix.base) n) : m = n := by
  have value := digitsValue_toDigits radix
  have unsigned : ∀ n, '-' ∉ Nat.toDigits radix.base n := fun n sign =>
    ne_of_isDigit (isDigit_of_mem_toDigits radix sign) (by decide) rfl
  cases m with
  | ofNat m =>
    cases n with
    | ofNat n =>
      have values : m = n := by
        rw [← value m, ← value n]
        exact congrArg (digitsValue radix) same
      rw [values]
    | negSucc n =>
      rw [signed, signed] at same
      exact absurd (same ▸ List.mem_cons_self) (unsigned m)
  | negSucc m =>
    cases n with
    | ofNat n =>
      rw [signed, signed] at same
      exact absurd (same ▸ List.mem_cons_self) (unsigned n)
    | negSucc n =>
      rw [signed, signed, List.cons_inj_right] at same
      have values : m + 1 = n + 1 := by
        rw [← value (m + 1), ← value (n + 1)]
        exact congrArg (digitsValue radix) same
      rw [Nat.succ_inj.1 values]

theorem eq_of_hexText {m n : Int} (same : hexText m = hexText n) : m = n :=
  eq_of_signed .hexadecimal same

theorem eq_of_decimalText {m n : Int}
    (same : String.ofList (decimalText m) = String.ofList (decimalText n)) : m = n :=
  eq_of_signed .decimal (String.ofList_injective same)

/-! ### Magnitudes -/

/-- A run of digits and underscores is less than the power of the base that its digits make. -/
theorem digitsValue_lt (parts : ∀ c ∈ run, (radix.isDigit c || c = '_') = true) :
    digitsValue radix run < radix.base ^ (run.filter (· ≠ '_')).length := by
  -- digits after a number `n` make less than `n + 1` times the power
  have grows : ∀ n, run.foldl (fun n c => if c = '_' then n
      else n * radix.base + (glyphValue? c).getD 0) n + 1 ≤
        (n + 1) * radix.base ^ (run.filter (· ≠ '_')).length := by
    induction run with
    | nil =>
      intro n
      simp
    | cons c run ih =>
      intro n
      have later := ih fun d mem => parts d (List.mem_cons_of_mem c mem)
      rw [List.foldl_cons]
      by_cases spacer : c = '_'
      · rw [if_pos spacer, List.filter_cons_of_neg (by simp [spacer])]
        exact later n
      · have digit : radix.isDigit c = true := by simpa [spacer] using parts c (by simp)
        have value : (glyphValue? c).getD 0 + 1 ≤ radix.base := by
          rw [Radix.isDigit, Option.any_eq_true] at digit
          obtain ⟨d, found, below⟩ := digit
          rw [found, Option.getD_some]
          exact of_decide_eq_true below
        rw [if_neg spacer, List.filter_cons_of_pos (by simp [spacer]), List.length_cons,
          Nat.pow_succ', ← Nat.mul_assoc]
        refine (later _).trans (Nat.mul_le_mul_right _ ?_)
        rw [Nat.add_mul, Nat.one_mul, Nat.add_assoc]
        exact Nat.add_le_add_left value _
  have whole := grows 0
  rw [Nat.zero_add, Nat.one_mul] at whole
  exact whole

/-- A decimal number that is read has no more digits than one that is written may have. -/
theorem isTooLong_of_read {n : Int} {text : String} (read_eq : read .decimal text = .ok n) :
    isTooLong n = false := by
  have small : ∀ {source : String} {s : List Char} {m : Nat},
      readMagnitude .decimal source s = .ok m → m < Nat.pow 10 maxDigits := by
    intro source s m magnitude
    unfold readMagnitude at magnitude
    dsimp only at magnitude
    split at magnitude
    · cases magnitude
    split at magnitude
    · cases magnitude
    next short =>
    split at magnitude
    · obtain rfl := Except.ok.inj magnitude
      have length : ((s.takeWhile fun c => Radix.isDigit .decimal c || c = '_').filter
          (· ≠ '_')).length ≤ maxDigits := by
        by_contra long
        exact short ⟨rfl, Nat.lt_of_not_le long⟩
      have value := @digitsValue_lt .decimal
        (s.takeWhile fun c => Radix.isDigit .decimal c || c = '_') fun c mem => by
          have part := List.mem_takeWhile_imp mem
          exact part
      -- for any bound, so that the power of the real one is not evaluated
      have grows : ∀ n m, n ≤ m → Nat.pow 10 n ≤ Nat.pow 10 m :=
        fun _ _ => Nat.pow_le_pow_right (by decide)
      exact Nat.lt_of_lt_of_le value (grows _ maxDigits length)
    · cases magnitude
  simp only [read, bind, Except.bind] at read_eq
  split at read_eq
  · cases read_eq
  · next m magnitude =>
    have below := small magnitude
    obtain rfl := Except.ok.inj read_eq
    rw [isTooLong, decide_eq_false_iff_not, Nat.not_le]
    refine Nat.lt_of_le_of_lt (Nat.le_of_eq ?_) below
    split
    · rw [Int.natAbs_neg, Int.natAbs_natCast]
    · rw [Int.natAbs_natCast]

end PackPlan.Numeral
