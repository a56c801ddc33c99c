import Mathlib.Data.List.Basic
import PackPlan.Text.Casing

/-!
# Text in lower case

Lower-casing yields small letters and characters without case, and leaves these as they are, so
that text in lower case is lower-cased to itself. Whether a small letter is a capital as well is
settled run by run: the small letters of a run lie apart from the capitals of every other run, or
fall between them where the capitals come in steps of two.

## Main definitions

* `Text.IsSmall` — a character that lower-casing leaves as it is
* `Text.CaseRun.clears` — the small letters of a run are no capitals of another

## Main results

* `Text.isSmall_of_mem_lower` — what lower-casing yields is small
* `Text.lower_eq_self` — small characters are lower-cased to themselves
* `Text.mem_or_le_of_mem_lower` — what lower-casing brings in comes from `a` on
-/

namespace PackPlan.Text

variable {c d : Char} {s : List Char} {n : Nat} {run other : CaseRun}

/-- A character that lower-casing leaves as it is, whatever stands around it. -/
structure IsSmall (c : Char) : Prop where
  ne_sigma : c ≠ '\u03a3'
  lowerChar : lowerChar c = [c]

instance : DecidablePred IsSmall := fun c =>
  decidable_of_iff (c ≠ '\u03a3' ∧ Text.lowerChar c = [c])
    ⟨fun h => ⟨h.1, h.2⟩, fun h => ⟨h.ne_sigma, h.lowerChar⟩⟩

/-! ### Runs of capitals -/

namespace CaseRun

/-- The small letter of the first capital. -/
def low (run : CaseRun) : Nat := (run.first + run.shift).toNat

/-- The small letter of the last capital. -/
def high (run : CaseRun) : Nat := (run.last + run.shift).toNat

/-- The small letters of a run are no capitals of another: they come before these or after them,
or fall between them. -/
def clears (run other : CaseRun) : Bool :=
  !(other.first.ble run.high && run.low.ble other.last) ||
    (other.step == 2 && (run.step == 2 || run.first == run.last) &&
      (run.low + other.first) % 2 == 1)

/-- Small letters are those of ASCII, or characters beyond ASCII other than the capital that has
two. -/
structure IsSound (run : CaseRun) : Prop where
  shift : -(run.first : Int) ≤ run.shift
  letters : 97 ≤ run.low ∧ run.high ≤ 122 ∨ 128 ≤ run.low ∧
    (run.high < 0x130 ∨ 0x130 < run.low) ∧ (run.high < 0xd800 ∨ 0xdfff < run.low) ∧
    run.high < 0x110000

instance : DecidablePred IsSound := fun run =>
  decidable_of_iff (-(run.first : Int) ≤ run.shift ∧
    (97 ≤ run.low ∧ run.high ≤ 122 ∨ 128 ≤ run.low ∧
      (run.high < 0x130 ∨ 0x130 < run.low) ∧ (run.high < 0xd800 ∨ 0xdfff < run.low) ∧
      run.high < 0x110000))
    ⟨fun h => ⟨h.1, h.2⟩, fun h => ⟨h.shift, h.letters⟩⟩

theorem isSound_of_mem : ∀ run ∈ caseRuns, run.IsSound := by decide +kernel

theorem clears_of_mem (mem : run ∈ caseRuns) (mem' : other ∈ caseRuns) :
    run.clears other = true := by
  have all : (caseRuns.all fun run => caseRuns.all run.clears) = true := by decide +kernel
  exact List.all_eq_true.1 (List.all_eq_true.1 all run mem) other mem'

theorem holds_iff : run.holds n = true ↔
    run.first ≤ n ∧ n ≤ run.last ∧ (n - run.first) % run.step = 0 := by
  simp only [holds, Bool.and_eq_true, decide_eq_true_eq, beq_iff_eq, and_assoc]

theorem clears_iff : run.clears other = true ↔
    ¬(other.first ≤ run.high ∧ run.low ≤ other.last) ∨
      other.step = 2 ∧ (run.step = 2 ∨ run.first = run.last) ∧
        (run.low + other.first) % 2 = 1 := by
  simp only [clears, Bool.or_eq_true, Bool.and_eq_true, Bool.not_eq_true', ← Bool.not_eq_true,
    Nat.ble_eq, beq_iff_eq, and_assoc]

/-- The small letter of a capital lies between those of the first and the last. -/
theorem small_mem (sound : run.IsSound) (holds : run.holds n = true) :
    (n + run.shift).toNat = run.low + (n - run.first) ∧ run.low + (n - run.first) ≤ run.high := by
  obtain ⟨above, below, -⟩ := holds_iff.1 holds
  have shift := sound.shift
  unfold low high
  omega

/-- A small letter of a run is no capital of one that the run clears. -/
theorem not_holds_small (sound : run.IsSound) (clears : run.clears other = true)
    (holds : run.holds n = true) : other.holds (n + run.shift).toNat = false := by
  obtain ⟨place, within⟩ := small_mem sound holds
  obtain ⟨above, below, step⟩ := holds_iff.1 holds
  rw [← Bool.not_eq_true, place, holds_iff]
  rintro ⟨above', below', step'⟩
  rcases clears_iff.1 clears with apart | ⟨pairs, single, odd⟩
  · omega
  · -- the letter is an odd number of places after the first capital of the other run
    rw [pairs] at step'
    rcases single with pairs' | one
    · rw [pairs'] at step
      omega
    · omega

end CaseRun

/-! ### Small characters -/

/-- Beyond ASCII a character that is no capital of a run is small, but for the one that has two
small letters. -/
theorem isSmall_of_not_holds (beyond : 128 ≤ c.toNat) (undotted : c.toNat ≠ 0x130)
    (free : ∀ run ∈ caseRuns, run.holds c.toNat = false) : IsSmall c := by
  have found : caseRuns.find? (·.holds c.toNat) = none := by
    rw [List.find?_eq_none]
    intro run mem holds
    rw [free run mem] at holds
    cases holds
  constructor
  · rintro rfl
    exact absurd found (by decide +kernel)
  · rw [lowerChar, if_neg (by omega), if_neg (by rintro rfl; exact undotted rfl), found]

/-- In ASCII the capitals alone are not small. -/
theorem isSmall_of_ascii (ascii : c.toNat < 128) (uncapital : c.toNat < 65 ∨ 90 < c.toNat) :
    IsSmall c := by
  have all : ∀ n < 128, n < 65 ∨ 90 < n → IsSmall (Char.ofNat n) := by decide +kernel
  have this := all c.toNat ascii uncapital
  rwa [Char.ofNat_toNat] at this

/-- What lower-casing makes of a character is small, and comes from `a` on if it is another. -/
def Lowers (c d : Char) : Prop := IsSmall d ∧ (d = c ∨ 97 ≤ d.toNat)

instance : Decidable (Lowers c d) := inferInstanceAs (Decidable (_ ∧ _))

theorem lowers_toLower_of_ascii (ascii : c.toNat < 128) : Lowers c c.toLower := by
  have all : ∀ n < 128, Lowers (Char.ofNat n) (Char.ofNat n).toLower := by decide +kernel
  have this := all c.toNat ascii
  rwa [Char.ofNat_toNat] at this

theorem lowers_of_holds (mem : run ∈ caseRuns) (holds : run.holds c.toNat = true) :
    Lowers c (Char.ofNat (c.toNat + run.shift).toNat) := by
  have sound := CaseRun.isSound_of_mem run mem
  obtain ⟨place, within⟩ := CaseRun.small_mem sound holds
  have letters := sound.letters
  have code : (Char.ofNat (c.toNat + run.shift).toNat).toNat = (c.toNat + run.shift).toNat := by
    have valid : (c.toNat + run.shift).toNat.isValidChar := by
      rw [place, Nat.isValidChar]
      omega
    rw [Char.ofNat, dif_pos valid]
    rfl
  refine ⟨?_, Or.inr (by omega)⟩
  rcases letters with ascii | beyond
  · exact isSmall_of_ascii (by omega) (by omega)
  · refine isSmall_of_not_holds (by omega) (by omega) fun other there => ?_
    rw [code]
    exact CaseRun.not_holds_small sound (CaseRun.clears_of_mem mem there) holds

theorem lowers_of_mem_lowerChar (mem : d ∈ lowerChar c) : Lowers c d := by
  unfold lowerChar at mem
  split at mem
  · next ascii =>
    rw [List.mem_singleton] at mem
    exact mem ▸ lowers_toLower_of_ascii ascii
  · next beyond =>
    split at mem
    · next dotted =>
      subst dotted
      rw [List.mem_pair] at mem
      rcases mem with rfl | rfl <;> decide +kernel
    · next undotted =>
      split at mem
      · next run found =>
        rw [List.mem_singleton] at mem
        exact mem ▸ lowers_of_holds (List.mem_of_find?_eq_some found)
          (List.find?_some (p := fun run : CaseRun => run.holds c.toNat) found)
      · next absent =>
        rw [List.mem_singleton] at mem
        subst mem
        refine ⟨isSmall_of_not_holds (by omega) (fun code => undotted ?_) fun run there => ?_,
          Or.inl rfl⟩
        · exact Char.toNat_inj.1 code
        · exact Bool.not_eq_true _ ▸ List.find?_eq_none.1 absent run there

/-! ### Texts -/

theorem exists_lowers_of_mem_lower (mem : d ∈ lower s) : ∃ c ∈ s, Lowers c d := by
  rw [lower] at mem
  generalize [] = before at mem
  induction s generalizing before with
  | nil => cases mem
  | cons c s ih =>
    rw [lowerFrom, List.mem_append] at mem
    rcases mem with here | later
    · refine ⟨c, List.mem_cons_self, ?_⟩
      split at here
      · next sigma =>
        rw [List.mem_singleton, lowerSigma] at here
        subst sigma here
        split <;> decide +kernel
      · exact lowers_of_mem_lowerChar here
    · obtain ⟨c', there, lowers⟩ := ih _ later
      exact ⟨c', List.mem_cons_of_mem c there, lowers⟩

/-- What lower-casing yields is small. -/
theorem isSmall_of_mem_lower (mem : d ∈ lower s) : IsSmall d := by
  obtain ⟨c, -, lowers⟩ := exists_lowers_of_mem_lower mem
  exact lowers.1

/-- What lower-casing brings in comes from `a` on. -/
theorem mem_or_le_of_mem_lower (mem : d ∈ lower s) : d ∈ s ∨ 97 ≤ d.toNat := by
  obtain ⟨c, there, -, same | high⟩ := exists_lowers_of_mem_lower mem
  · exact Or.inl (same ▸ there)
  · exact Or.inr high

/-- Small characters are lower-cased to themselves. -/
theorem lower_eq_self (small : ∀ c ∈ s, IsSmall c) : lower s = s := by
  rw [lower]
  generalize [] = before
  induction s generalizing before with
  | nil => rfl
  | cons c s ih =>
    rw [List.forall_mem_cons] at small
    rw [lowerFrom, if_neg small.1.ne_sigma, small.1.lowerChar, ih small.2, List.singleton_append]

end PackPlan.Text
