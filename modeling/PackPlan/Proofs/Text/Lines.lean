import Mathlib.Data.List.Basic
import PackPlan.Text.Lines

/-!
# Lines of a text

Cutting a text into lines loses nothing of it. A line that has no end within it is cut off where it
ends, but for a carriage return before a line feed: there the two are one end. So one line end has
to be used throughout if a text is laid out in lines and these are to be found again.

## Main definitions

* `Text.allLines` — all lines of a text, also one without an end
* `Text.LineEnd` — the ends that a line may have
* `Text.IsLines` — lines with their ends, the last of them perhaps without

## Main results

* `Text.flatten_linesOf` — lines lose nothing of a text
* `Text.allLines_append`, `Text.allLines_of_unbroken` — the first line of a text, and its last
* `Text.isLines_allLines` — each line of a text has one end, and only the last may have none
-/

namespace PackPlan.Text

variable {line rest s : List Char}

/-- All lines of a text. What follows the last line end is a line too. -/
def allLines (s : List Char) : List (List Char) :=
  let (lines, rest) := linesOf s
  if rest = [] then lines else lines ++ [rest]

/-- What ends a line. -/
inductive LineEnd
  | feed
  | carriage
  | both
  deriving DecidableEq, Repr

/-- The characters of a line end. -/
def LineEnd.chars : LineEnd → List Char
  | .feed => ['\n']
  | .carriage => ['\r']
  | .both => ['\r', '\n']

theorem flatten_linesFrom (line : List Char) (returned : Bool) (s : List Char) :
    (linesFrom line returned s).1.flatten ++ (linesFrom line returned s).2 = line.reverse ++ s := by
  induction s generalizing line returned with
  | nil => simp [linesFrom]
  | cons c s ih =>
    rw [linesFrom]
    -- a line that ends here goes before those that follow
    have ended : ∀ line' : List Char, (line' :: (linesFrom [] false s).1).flatten ++
        (linesFrom [] false s).2 = line' ++ s := by
      intro line'
      rw [List.flatten_cons, List.append_assoc, ih]
      rfl
    split
    · split
      · exact (ended _).trans (by simp)
      · rw [List.flatten_cons, List.append_assoc, ih]
        simp
    · split
      · exact (ended _).trans (by simp)
      · rw [ih]
        simp

/-- The lines of a text and what follows the last of them are the text. -/
theorem flatten_linesOf (s : List Char) : (linesOf s).1.flatten ++ (linesOf s).2 = s :=
  flatten_linesFrom [] false s

theorem flatten_allLines (s : List Char) : (allLines s).flatten = s := by
  have whole := flatten_linesOf s
  rw [allLines]
  dsimp only
  split
  · next none => rwa [none, List.append_nil] at whole
  · rwa [List.flatten_concat]

/-! ### One line -/

/-- Characters that end no line belong to the line that is being read. -/
theorem linesFrom_append (unbroken : ∀ c ∈ s, c ≠ '\n' ∧ c ≠ '\r') (line rest : List Char) :
    linesFrom line false (s ++ rest) = linesFrom (s.reverse ++ line) false rest := by
  induction s generalizing line with
  | nil => rfl
  | cons c s ih =>
    obtain ⟨feed, carriage⟩ := unbroken c (by simp)
    rw [List.cons_append, linesFrom, if_neg Bool.false_ne_true, if_neg feed,
      decide_eq_false carriage, ih fun d mem => unbroken d (List.mem_cons_of_mem c mem),
      List.reverse_cons, List.append_assoc, List.singleton_append]

/-- The line that is being read ends. A carriage return does not end it before a line feed. -/
theorem linesFrom_end {e : LineEnd}
    (apart : e = .carriage → ∃ c later, rest = c :: later ∧ c ≠ '\n')
    (line : List Char) : linesFrom line false (e.chars ++ rest) =
      ((line.reverse ++ e.chars) :: (linesFrom [] false rest).1, (linesFrom [] false rest).2) := by
  cases e with
  | feed => exact congrArg (fun l => (l :: _, _)) List.reverse_cons
  | both =>
    refine congrArg (fun l => (l :: _, _)) ?_
    rw [List.reverse_cons, List.reverse_cons, List.append_assoc]
    rfl
  | carriage =>
    obtain ⟨c, later, rfl, feed⟩ := apart rfl
    have again : linesFrom [] false (c :: later) = linesFrom [c] (decide (c = '\r')) later := by
      rw [linesFrom, if_neg Bool.false_ne_true, if_neg feed]
    rw [again, LineEnd.chars, List.singleton_append, linesFrom, if_neg Bool.false_ne_true,
      if_neg (by decide), linesFrom, if_pos (decide_eq_true rfl), if_neg feed, List.reverse_cons]

/-- A text without line ends is one line, unless it is empty. -/
theorem linesOf_of_unbroken (unbroken : ∀ c ∈ s, c ≠ '\n' ∧ c ≠ '\r') : linesOf s = ([], s) := by
  have whole := linesFrom_append unbroken [] []
  rw [List.append_nil, List.append_nil] at whole
  exact whole.trans (congrArg ([], ·) (List.reverse_reverse s))

theorem allLines_of_unbroken (unbroken : ∀ c ∈ s, c ≠ '\n' ∧ c ≠ '\r') (nonempty : s ≠ []) :
    allLines s = [s] := by
  rw [allLines, linesOf_of_unbroken unbroken]
  exact if_neg nonempty

/-- The first line of a text. A carriage return that ends it does not stand before a line feed. -/
theorem allLines_append {e : LineEnd} (unbroken : ∀ c ∈ line, c ≠ '\n' ∧ c ≠ '\r')
    (apart : e = .carriage → ∀ c ∈ rest.head?, c ≠ '\n') :
    allLines (line ++ e.chars ++ rest) = (line ++ e.chars) :: allLines rest := by
  by_cases last : e = .carriage ∧ rest = []
  · -- what the carriage return ends is what follows the last line end
    obtain ⟨rfl, rfl⟩ := last
    have read : linesOf (line ++ LineEnd.carriage.chars) =
        ([], line ++ LineEnd.carriage.chars) := by
      rw [linesOf, linesFrom_append unbroken]
      simp [LineEnd.chars, linesFrom]
    rw [List.append_nil, allLines, read]
    exact if_neg (by simp [LineEnd.chars])
  · have next : e = .carriage → ∃ c later, rest = c :: later ∧ c ≠ '\n' := by
      intro carriage
      obtain ⟨c, later, rfl⟩ := List.exists_cons_of_ne_nil fun none => last ⟨carriage, none⟩
      exact ⟨c, later, rfl, apart carriage c rfl⟩
    have read : linesOf (line ++ e.chars ++ rest) =
        ((line ++ e.chars) :: (linesOf rest).1, (linesOf rest).2) := by
      rw [linesOf, List.append_assoc, linesFrom_append unbroken, linesFrom_end next,
        List.append_nil, List.reverse_reverse, linesOf]
    rw [allLines, allLines, read]
    dsimp only
    split
    · rfl
    · rw [List.cons_append]

/-! ### All lines -/

/-- Lines that each have one end, but for the last, which may have none. -/
inductive IsLines : List (List Char) → Prop
  | nil : IsLines []
  | last {line : List Char} (unbroken : ∀ c ∈ line, c ≠ '\n' ∧ c ≠ '\r') (nonempty : line ≠ []) :
    IsLines [line]
  | cons {line : List Char} {lines : List (List Char)} (e : LineEnd)
    (unbroken : ∀ c ∈ line, c ≠ '\n' ∧ c ≠ '\r') (rest : IsLines lines) :
    IsLines ((line ++ e.chars) :: lines)

/-- A text goes up to a line end, if there is one in it. -/
theorem unbroken_or_exists_lineEnd (s : List Char) : (∀ c ∈ s, c ≠ '\n' ∧ c ≠ '\r') ∨
    ∃ line e rest, s = line ++ LineEnd.chars e ++ rest ∧ (∀ c ∈ line, c ≠ '\n' ∧ c ≠ '\r') ∧
      (e = .carriage → ∀ c ∈ rest.head?, c ≠ '\n') := by
  induction s with
  | nil => exact .inl (by simp)
  | cons c s ih =>
    by_cases feed : c = '\n'
    · exact .inr ⟨[], .feed, s, by rw [feed]; rfl, by simp, fun same => by cases same⟩
    by_cases carriage : c = '\r'
    · -- a line feed after it belongs to the same end
      by_cases both : s.head? = some '\n'
      · obtain ⟨rest, rfl⟩ := List.head?_eq_some_iff.1 both
        exact .inr ⟨[], .both, rest, by rw [carriage]; rfl, by simp, fun same => by cases same⟩
      · refine .inr ⟨[], .carriage, s, by rw [carriage]; rfl, by simp, ?_⟩
        rintro - d head rfl
        exact both head
    rcases ih with unbroken | ⟨line, e, rest, rfl, unbroken, apart⟩
    · exact .inl (List.forall_mem_cons.2 ⟨⟨feed, carriage⟩, unbroken⟩)
    · exact .inr ⟨c :: line, e, rest, rfl,
        List.forall_mem_cons.2 ⟨⟨feed, carriage⟩, unbroken⟩, apart⟩

/-- Each line of a text has one end, and only the last may have none. -/
theorem isLines_allLines (s : List Char) : IsLines (allLines s) := by
  rcases unbroken_or_exists_lineEnd s with unbroken | ⟨line, e, rest, whole, unbroken, apart⟩
  · by_cases empty : s = []
    · subst empty
      exact .nil
    · rw [allLines_of_unbroken unbroken empty]
      exact .last unbroken empty
  · rw [whole, allLines_append unbroken apart]
    exact .cons e unbroken (isLines_allLines rest)
termination_by s.length
decreasing_by
  have shorter : rest.length < (line ++ e.chars ++ rest).length := by
    cases e <;> simp [LineEnd.chars] <;> omega
  rw [whole]
  exact shorter

end PackPlan.Text
