import Mathlib.Data.List.TakeDrop
import Mathlib.Data.List.TakeWhile
import PackPlan.Proofs.Attempt
import PackPlan.Proofs.Identity
import PackPlan.Proofs.Results
import PackPlan.Seed

/-!
# Texts as seeds

A text denotes a seed by its path alone, or by its path and a number in brackets behind it. The
first opening bracket ends the path, and the first closing bracket behind that ends the number;
whatever follows is not looked at. Every text is either such a seed or refused as wrong input, and
the only thing that is ever told about it is that the closing bracket is missing.

## Main definitions

* `Seed.IsMarkable` — a path behind which a pack can be written
* `Seed.IsUnclosed` — a text whose opening bracket is not closed
* `Seed.Answers` — what may come of reading a text as a seed

## Main results

* `Seed.runFrom_readMark_cons`, `Seed.runFrom_read` — how a text is read
* `Seed.pack_nonneg_of_read` — the pack of a seed is not negative
* `Seed.read_written_and_answers` — a written seed reads back, and every text is answered
-/

namespace PackPlan.Seed

variable {seed : Seed} {text path : String} {pack : Int} {rest inside mark : List Char}
  {told told' : List Notice}

/-- A path in normal form behind which a pack can be written. -/
structure IsMarkable (path : String) : Prop where
  /-- It names an asset. -/
  nonempty : path ≠ ""
  /-- It has no opening bracket itself. -/
  unmarked : '[' ∉ path.toList
  /-- It is in normal form. -/
  normal : AssetPath.normalize path = path

/-- The first opening bracket of a text has no closing bracket behind it. -/
def IsUnclosed (text : String) : Prop :=
  ∃ hint inside, text.toList = hint ++ '[' :: inside ∧ '[' ∉ hint ∧ ']' ∉ inside

/-- What is told of a text whose opening bracket is not closed. -/
def unclosed (text : String) : Notice :=
  .warning s!"expected a second marker ( ] ) in seed ( {text} )"

/-- Why a text is refused as a seed: the number of its pack cannot be read or is negative, or it
names no asset. -/
inductive Refuses (text : String) : InputFault → Prop
  | pack (inside : String) : Refuses text (.seedPack inside text)
  | sign : Refuses text (.seedPackSign text)
  | path : Refuses text (.seedPath text)

/-- What may come of reading a text as a seed, and what is told with it. -/
structure Answers (text : String) (answer : Except Fault Seed × List Notice) : Prop where
  /-- The text is a seed, or it is refused as wrong input. -/
  outcome : (∃ seed, answer.1 = .ok seed ∧ seed.path ≠ "" ∧ 0 ≤ seed.pack) ∨
    ∃ cause, answer.1 = .error (.input cause) ∧ Refuses text cause
  /-- One warning is told of a bracket that is not closed. -/
  warned : IsUnclosed text → answer.2 = [unclosed text]
  /-- Nothing else is ever told. -/
  silent : ¬ IsUnclosed text → answer.2 = []

/-! ### The number in brackets -/

theorem pack_nonneg_of_readPack (read : readPack text inside = .ok pack) : 0 ≤ pack := by
  rw [readPack] at read
  split at read
  · cases read
  · split at read
    · cases read
    · next natural =>
      cases read
      exact Int.not_lt.1 natural

theorem refuses_of_readPack {cause : InputFault} (read : readPack text inside = .error cause) :
    Refuses text cause := by
  rw [readPack] at read
  split at read
  · cases read
    exact .pack _
  · split at read
    · cases read
      exact .sign
    · cases read

/-- A number that has been written between brackets is read. -/
theorem readPack_decimalText (natural : 0 ≤ pack) (short : Numeral.isTooLong pack = false) :
    readPack text (Numeral.decimalText pack) = .ok pack := by
  have plain : Text.trim (Numeral.decimalText pack) = Numeral.decimalText pack := by
    apply Text.trimBy_eq_self
    intro c mem
    rcases Numeral.mem_signed .decimal mem with rfl | digit
    · decide
    · have range := Numeral.toNat_of_isDigit digit
      apply Guid.isBlank_of_visible <;> omega
  rw [readPack, plain, Numeral.read_decimalText short]
  exact if_neg (Int.not_lt.2 natural)

/-- Between brackets the number is read, and a bracket that is missing is told of. -/
theorem runFrom_readMark_cons (bracket : Char) :
    (readMark text (bracket :: inside)).runFrom told =
      ((readPack text (inside.takeWhile (· ≠ ']'))).mapError .input,
        told ++ if ']' ∈ inside then [] else [unclosed text]) := by
  rw [readMark]
  by_cases closed : ']' ∈ inside
  · rw [if_neg (not_not.2 closed), if_pos closed, List.append_nil]
    rfl
  · rw [if_pos closed, if_neg closed]
    rfl

/-! ### The text -/

/-- What is made of a text of which the path and the number have been told apart. -/
def named (text hint : String) (pack : Int) : Except Fault Seed :=
  let path := AssetPath.normalize hint
  if path = "" then .error (.input (.seedPath text)) else .ok { path, pack }

theorem runFrom_read_of_span {hint : List Char}
    (parts : text.toList.span (· ≠ '[') = (hint, mark)) :
    (read text).runFrom told = match (readMark text mark).runFrom told with
      | (.ok pack, told') => (named text (String.ofList hint) pack, told')
      | (.error fault, told') => (.error fault, told') := by
  unfold read
  rw [parts]
  dsimp only
  rw [Attempt.runFrom_bind]
  obtain ⟨r, told'⟩ := (readMark text mark).runFrom told
  cases r with
  | error fault => rfl
  | ok pack =>
    unfold named
    dsimp only
    split <;> rfl

/-- A text without an opening bracket is a path. -/
theorem runFrom_read_of_unmarked (unmarked : '[' ∉ text.toList) :
    (read text).runFrom told = (named text text 0, told) := by
  have kept : ∀ c ∈ text.toList, decide (c ≠ '[') = true := by
    intro c mem
    rw [decide_eq_true_eq]
    rintro rfl
    exact unmarked mem
  have parts : text.toList.span (· ≠ '[') = (text.toList, []) := by
    rw [List.span_eq_takeWhile_dropWhile, List.takeWhile_eq_self_iff.2 kept,
      List.dropWhile_eq_nil_iff.2 kept]
  rw [runFrom_read_of_span parts, String.ofList_toList]
  rfl

theorem span_of_marked {hint : List Char} (parts : text.toList = hint ++ '[' :: inside)
    (first : '[' ∉ hint) : text.toList.span (· ≠ '[') = (hint, '[' :: inside) := by
  have kept : ∀ c ∈ hint, decide (c ≠ '[') = true := by
    intro c mem
    rw [decide_eq_true_eq]
    rintro rfl
    exact first mem
  rw [List.span_eq_takeWhile_dropWhile, parts, List.takeWhile_append_of_pos kept,
    List.dropWhile_append_of_pos kept, List.takeWhile_cons_of_neg (by simp),
    List.dropWhile_cons_of_neg (by simp), List.append_nil]

/-- The first opening bracket ends the path, and the number stands behind it. -/
theorem runFrom_read_of_marked {hint : List Char} (parts : text.toList = hint ++ '[' :: inside)
    (first : '[' ∉ hint) : (read text).runFrom told =
      (match readPack text (inside.takeWhile (· ≠ ']')) with
        | .ok pack => named text (String.ofList hint) pack
        | .error cause => .error (.input cause),
        told ++ if ']' ∈ inside then [] else [unclosed text]) := by
  rw [runFrom_read_of_span (span_of_marked parts first), runFrom_readMark_cons]
  generalize readPack text (inside.takeWhile (· ≠ ']')) = r
  cases r with
  | ok pack => simp only [Except.mapError]
  | error cause => simp only [Except.mapError]

/-- Every text is either without an opening bracket or has a first one. -/
theorem unmarked_or_marked (text : String) : '[' ∉ text.toList ∨
    ∃ hint inside, text.toList = hint ++ '[' :: inside ∧ '[' ∉ hint := by
  by_cases marked : '[' ∈ text.toList
  · obtain ⟨hint, inside, parts, first⟩ := List.eq_append_cons_of_mem marked
    exact .inr ⟨hint, inside, parts, first⟩
  · exact .inl marked

theorem outcome_named (text hint : String) (natural : 0 ≤ pack) :
    (∃ seed, named text hint pack = .ok seed ∧ seed.path ≠ "" ∧ 0 ≤ seed.pack) ∨
      ∃ cause, named text hint pack = .error (.input cause) ∧ Refuses text cause := by
  unfold named
  dsimp only
  split
  · exact .inr ⟨_, rfl, .path⟩
  · next nonempty => exact .inl ⟨_, rfl, nonempty, natural⟩

/-- Whatever the text is, it is a seed or refused as wrong input, and a warning is told exactly if
its first opening bracket is not closed. -/
theorem answers_read (text : String) : Answers text (read text).run := by
  rw [Attempt.run_eq_runFrom]
  rcases unmarked_or_marked text with unmarked | ⟨hint, inside, parts, first⟩
  · rw [runFrom_read_of_unmarked unmarked]
    constructor
    · dsimp only
      exact outcome_named text text (Int.le_refl 0)
    · rintro ⟨hint, inside, parts, -, -⟩
      exact absurd (parts ▸ List.mem_append_right hint List.mem_cons_self) unmarked
    · intro _
      rfl
  · have unclosed_iff : IsUnclosed text ↔ ']' ∉ inside := by
      constructor
      · rintro ⟨hint', inside', parts', first', closes⟩
        have same := (span_of_marked parts first).symm.trans (span_of_marked parts' first')
        rwa [(List.cons.inj (Prod.mk.inj same).2).2]
      · intro closes
        exact ⟨hint, inside, parts, first, closes⟩
    rw [runFrom_read_of_marked parts first, List.nil_append]
    constructor
    · cases number : readPack text (inside.takeWhile (· ≠ ']')) with
      | ok pack =>
        dsimp only
        exact outcome_named text _ (pack_nonneg_of_readPack number)
      | error cause => exact .inr ⟨cause, rfl, refuses_of_readPack number⟩
    · intro unclosed
      rw [if_neg (unclosed_iff.1 unclosed)]
    · intro closed
      rw [if_pos (not_not.1 fun absent => closed (unclosed_iff.2 absent))]

/-- The pack of a seed that is read is not negative. -/
theorem pack_nonneg_of_read (answer : (read text).run.1 = .ok seed) : 0 ≤ seed.pack := by
  rcases (answers_read text).outcome with ⟨seed', same, -, natural⟩ | ⟨cause, refused, -⟩
  · obtain rfl := Except.ok.inj (answer.symm.trans same)
    exact natural
  · rw [refused] at answer
    cases answer

/-! ### Written seeds -/

theorem named_of_markable (markable : IsMarkable path) (text : String) (pack : Int) :
    named text path pack = .ok { path, pack } := by
  unfold named
  rw [markable.normal]
  exact if_neg markable.nonempty

theorem run_read_of_markable (markable : IsMarkable path) :
    (read path).run = (.ok { path }, []) := by
  rw [Attempt.run_eq_runFrom, runFrom_read_of_unmarked markable.unmarked,
    named_of_markable markable]

/-- A path with a number in brackets, and whatever follows. -/
def written (path : String) (pack : Int) (rest : String) : String :=
  path ++ "[" ++ String.ofList (Numeral.decimalText pack) ++ "]" ++ rest

theorem run_read_written (markable : IsMarkable path) (natural : 0 ≤ pack)
    (short : Numeral.isTooLong pack = false) (rest : String) :
    (read (written path pack rest)).run = (.ok { path, pack }, []) := by
  have parts : (written path pack rest).toList =
      path.toList ++ '[' :: (Numeral.decimalText pack ++ ']' :: rest.toList) := by
    simp [written]
  have digits : ∀ c ∈ Numeral.decimalText pack, decide (c ≠ ']') = true := by
    intro c mem
    rw [decide_eq_true_eq]
    rintro rfl
    rcases Numeral.mem_signed .decimal mem with sign | digit
    · exact absurd sign (by decide)
    · exact Numeral.ne_of_isDigit digit (by decide) rfl
  have number : (Numeral.decimalText pack ++ ']' :: rest.toList).takeWhile (· ≠ ']') =
      Numeral.decimalText pack := by
    rw [List.takeWhile_append_of_pos digits, List.takeWhile_cons_of_neg (by simp), List.append_nil]
  rw [Attempt.run_eq_runFrom, runFrom_read_of_marked parts markable.unmarked, number,
    readPack_decimalText natural short, String.ofList_toList, if_pos (by simp)]
  dsimp only
  rw [named_of_markable markable, List.append_nil]

/-- A seed that is written as its path, or as its path and its pack in brackets with anything
behind them, is read without a warning. Every text at all is answered, by a seed or by a refusal,
and with one warning exactly if its first opening bracket is not closed. -/
theorem read_written_and_answers :
    (∀ (path : String) (pack : Int) (rest : String), IsMarkable path → 0 ≤ pack →
      pack < 10 ^ Numeral.maxDigits →
        (read (path ++ "[" ++ String.ofList (Numeral.decimalText pack) ++ "]" ++ rest)).run =
            (.ok { path, pack }, []) ∧
          (read path).run = (.ok { path, pack := 0 }, [])) ∧
      ∀ text : String, Answers text (read text).run := by
  refine ⟨fun path pack rest markable natural below => ?_, answers_read⟩
  have short := Numeral.isTooLong_of_lt_pow natural below
  exact ⟨run_read_written markable natural short rest, run_read_of_markable markable⟩

/-- The path has a closing bracket of its own, and the number is followed by an opening one, which
is not looked at; that of the other text is the first, and is not closed. -/
theorem read_written_and_answers_brackets :
    (read "maps/a]b[70][").run = (.ok { path := "maps/a]b", pack := 70 }, []) ∧
      (read "maps/a]b").run = (.ok { path := "maps/a]b", pack := 0 }, []) ∧
      IsUnclosed "maps]a[7" ∧ Answers "maps]a[7" (read "maps]a[7").run := by
  have markable : IsMarkable "maps/a]b" := ⟨by decide, by decide, by decide +kernel⟩
  have below : (70 : Int) < 10 ^ Numeral.maxDigits := Numeral.lt_pow_of_lt (by decide)
  obtain ⟨reads, answers⟩ := read_written_and_answers
  obtain ⟨marked, plain⟩ := reads "maps/a]b" 70 "[" markable (by decide) below
  exact ⟨marked, plain, ⟨"maps]a".toList, ['7'], by decide, by decide, by decide⟩, answers _⟩

end PackPlan.Seed
