import PackPlan.Catalog.Loader
import PackPlan.Proofs.Attempt
import PackPlan.Proofs.Catalog.RowLines
import PackPlan.Proofs.Json.Numbers

/-!
# Line numbers in warnings

A row that is passed over, and a dependency that is, give rise to a warning that names a line. The
number is counted from the rows that have fields, and blank lines have none. So where nothing in
quotation marks goes on past the end of its line, a warning names the line of its row less the
number of blank lines above it, and it names this line itself exactly if there are no such lines.

## Main definitions

* `Catalog.bodyLines` — the lines below the header that are read, with their numbers
* `Catalog.blanksAbove` — how many blank lines stand above a line
* `Catalog.toldOf` — what is told of the row on a line
* `Catalog.NamesLine` — a warning that names a line of a file

## Main results

* `Catalog.addRows_snd_eq_flatMap` — what is told of rows is told of their lines
* `Catalog.namesLine_of_mem_lineNotices`, `Catalog.NamesLine.unique` — it names one number
* `Catalog.run_load_namesLine_iff` — when all of it names the lines of the rows
-/

namespace PackPlan.Catalog

open Rows (Row ofLine? isBlankLine)

variable {path place : String} {header row : Row} {number number' : Nat} {n : Notice}
  {l : List Char × Nat} {s : List Char}

/-! ### What is told of lines -/

/-- The header of a text, unless a field of its first line is too long. -/
def headerOf (s : List Char) : Row := ((Text.allLines s).head?.bind ofLine?).getD []

/-- The lines below the header with their numbers in the text, the first line being line 1. They are
read up to a line with a field that is too long. -/
def bodyLines (s : List Char) : List (List Char × Nat) :=
  ((Text.allLines s).zipIdx 1).tail.takeWhile fun l => (ofLine? l.1).isSome

/-- How many of the lines above a line are blank. -/
def blanksAbove (lines : List (List Char)) (number : Nat) : Nat :=
  (lines.take (number - 1)).countP isBlankLine

/-- What is told of the row on a line if this is taken for the line of a number. Nothing is told
of a line without a row. -/
def lineNotices (path : String) (header : Row) (number : Nat) (line : List Char) : List Notice :=
  match ofLine? line with
  | none | some [] => []
  | some row => (listing s!"{path}:{number}" header row).2

/-- What is told of the row on a line of a text. The number that is taken for that of the line
leaves out blank lines. -/
def toldOf (path : String) (s : List Char) (l : List Char × Nat) : List Notice :=
  lineNotices path (headerOf s) (l.2 - blanksAbove (Text.allLines s) l.2) l.1

/-- The notices of rows that are added are those of the first row and those of the others. -/
theorem addRows_snd_cons (path : String) (header : Row) (number : Nat) (row : Row)
    (rows : List Row) (c : Catalog) : ∃ c', (addRows path header number (row :: rows) c).2 =
      (listing s!"{path}:{number}" header row).2 ++ (addRows path header (number + 1) rows c').2 :=
  ⟨_, rfl⟩

/-- What is told of the rows on lines below others is told of one line after the other. -/
theorem addRows_snd_eq_flatMap (path : String) (header : Row) (above below : List (List Char))
    (c : Catalog) :
    (addRows path header (above.length + 1 - above.countP isBlankLine)
      ((Rows.ofEach below).filter (· ≠ [])) c).2 =
    ((below.zipIdx (above.length + 1)).takeWhile fun l => (ofLine? l.1).isSome).flatMap fun l =>
      lineNotices path header (l.2 - blanksAbove (above ++ below) l.2) l.1 := by
  induction below generalizing above c with
  | nil => rfl
  | cons line below ih =>
    rw [List.zipIdx_cons, List.takeWhile_cons]
    cases read : ofLine? line with
    | none =>
      rw [Rows.ofEach_cons_of_none read]
      rfl
    | some row =>
      have blanks : blanksAbove (above ++ line :: below) (above.length + 1) =
          above.countP isBlankLine := by
        rw [blanksAbove, Nat.add_sub_cancel, List.take_left]
      -- the lines that follow stand below this one, too
      have later := ih (above ++ [line])
      rw [← List.append_cons, List.length_append, List.length_singleton, List.countP_append,
        List.countP_singleton] at later
      rw [Rows.ofEach_cons_of_some read, if_pos Option.isSome_some, List.flatMap_cons, lineNotices,
        read, blanks]
      cases row with
      | nil =>
        -- the number of the next row stays behind by one more line
        rw [if_pos (Rows.ofLine?_eq_nil_iff.1 read), Nat.add_sub_add_right] at later
        exact later c
      | cons field fields =>
        have full : ¬ isBlankLine line = true := by
          rw [← Rows.ofLine?_eq_nil_iff, read]
          simp
        have next : above.length + 1 + 1 - (above.countP isBlankLine + 0) =
            above.length + 1 - above.countP isBlankLine + 1 := by
          have within := List.countP_le_length (p := isBlankLine) (l := above)
          omega
        rw [if_neg full, next] at later
        obtain ⟨c', told⟩ := addRows_snd_cons path header
          (above.length + 1 - above.countP isBlankLine) (field :: fields)
          ((Rows.ofEach below).filter (· ≠ [])) c
        rw [← later c']
        exact told

/-- All that is told of a file is told of the rows below its header. -/
theorem run_load_snd {bytes : Bytes} {rows : List Row}
    (read : (Rows.ofBytes bytes).1 = header :: rows) (columns : missingColumns header = []) :
    (load path bytes).run.2 = (addRows path header 2 (rows.filter (· ≠ [])) .empty).2 := by
  obtain ⟨fault, whole⟩ : ∃ fault, Rows.ofBytes bytes = (header :: rows, fault) :=
    ⟨_, Prod.ext read rfl⟩
  rw [load, whole]
  dsimp only
  rw [if_neg (not_not.2 columns), Attempt.run_eq_runFrom,
    Attempt.runFrom_bind_ok (Attempt.runFrom_forM_tell _), List.nil_append]
  cases fault <;> rfl

/-- A text with all columns has a first line, and this holds its header. -/
theorem exists_first_of_columns (columns : missingColumns (headerOf s) = []) :
    ∃ first below, Text.allLines s = first :: below ∧ ofLine? first = some (headerOf s) ∧
      isBlankLine first = false := by
  cases lines : Text.allLines s with
  | nil =>
    rw [headerOf, lines] at columns
    cases columns
  | cons first below =>
    rw [headerOf, lines, List.head?_cons, Option.bind_some] at columns ⊢
    cases read : ofLine? first with
    | none =>
      rw [read] at columns
      cases columns
    | some header =>
      rw [read, Option.getD_some] at columns
      refine ⟨first, below, rfl, read, ?_⟩
      -- a row without fields has no columns
      rw [← Bool.not_eq_true, ← Rows.ofLine?_eq_nil_iff, read]
      rintro ⟨⟩
      cases columns

/-- What is told of a file is told of one line below its header after the other. -/
theorem run_load_snd_eq_flatMap (path : String) (columns : missingColumns (headerOf s) = [])
    (keeps : Rows.KeepsLines (Text.allLines s)) :
    (load path (Utf8.encode s)).run.2 = (bodyLines s).flatMap (toldOf path s) := by
  obtain ⟨first, below, lines, read, full⟩ := exists_first_of_columns columns
  have rows : (Rows.ofBytes (Utf8.encode s)).1 = headerOf s :: Rows.ofEach below := by
    rw [Rows.ofBytes_encode, Rows.ofText,
      Rows.ofLines_of_keepsLines (Text.isLines_allLines s) keeps, lines,
      Rows.ofEach_cons_of_some read]
  have told := addRows_snd_eq_flatMap path (headerOf s) [first] below .empty
  rw [List.countP_singleton, full] at told
  rw [run_load_snd rows columns, bodyLines, lines]
  refine told.trans ?_
  unfold toldOf
  rw [lines]
  rfl

/-! ### The lines that are named -/

/-- A warning about a row or a dependency that is passed over, which names a line of a file. -/
def NamesLine (path : String) (number : Nat) (n : Notice) : Prop :=
  ∃ what : String, n = .warning s!"{path}:{number}: skipping {what}"

theorem toList_repr (number : Nat) : number.repr.toList = Nat.toDigits 10 number := by
  rw [← Nat.toString_eq_repr, Nat.toString_eq_ofList_toDigits, String.toList_ofList]

/-- A number goes up to the colon after it. -/
theorem takeWhile_isDigit_toDigits (number : Nat) (rest : List Char) :
    (Nat.toDigits 10 number ++ ':' :: rest).takeWhile Json.isDigit = Nat.toDigits 10 number := by
  rw [List.takeWhile_append_of_pos fun c mem => Json.isDigit_of_mem_toDigits mem,
    List.takeWhile_cons_of_neg (by decide), List.append_nil]

/-- A warning names one line only. -/
theorem NamesLine.unique (names : NamesLine path number n) (names' : NamesLine path number' n) :
    number = number' := by
  obtain ⟨what, rfl⟩ := names
  obtain ⟨what', same⟩ := names'
  have chars := congrArg String.toList (Notice.warning.inj same)
  simp only [String.toList_append, String.append_assoc, toString, toList_repr] at chars
  -- behind the path there is a colon, and then the number up to the next one
  have front := congrArg (List.takeWhile Json.isDigit)
    (List.append_cancel_left (List.append_cancel_left chars))
  have digits : Nat.toDigits 10 number = Nat.toDigits 10 number' :=
    (takeWhile_isDigit_toDigits number _).symm.trans
      (front.trans (takeWhile_isDigit_toDigits number' _))
  calc number = Nat.ofDigitChars 10 (Nat.toDigits 10 number) 0 :=
        Nat.ofDigitChars_ten_toDigits.symm
    _ = Nat.ofDigitChars 10 (Nat.toDigits 10 number') 0 := by rw [digits]
    _ = number' := Nat.ofDigitChars_ten_toDigits

/-- What is passed over and why are one text. -/
theorem skipping_append (place what why : String) :
    Notice.warning (place ++ (": skipping " ++ what) ++ why) =
      .warning s!"{place}: skipping {what ++ why}" := by
  simp only [toString, String.append_assoc]

theorem exists_eq_of_mem_readDependencies {tokens : List (List Char)}
    (mem : n ∈ (readDependencies place tokens).2) :
    ∃ what : String, n = .warning s!"{place}: skipping {what}" := by
  induction tokens with
  | nil => cases mem
  | cons token tokens ih =>
    rw [readDependencies] at mem
    dsimp only at mem
    split at mem
    · exact ih mem
    split at mem
    · next cause _ =>
      rcases List.mem_cons.1 mem with rfl | later
      · exact ⟨"dependency, " ++ cause.message, skipping_append place "dependency, " cause.message⟩
      · exact ih later
    · exact ih mem

/-- All that is told of a row names the line for which the row is taken. -/
theorem namesLine_of_mem_listing (mem : n ∈ (listing s!"{path}:{number}" header row).2) :
    NamesLine path number n := by
  rw [listing] at mem
  split at mem
  · next cause _ =>
    rw [List.mem_singleton.1 mem]
    exact ⟨"row, " ++ cause.message, skipping_append _ "row, " cause.message⟩
  split at mem
  · rw [List.mem_singleton.1 mem]
    exact ⟨"row without an asset id", by simp [toString, String.append_assoc]⟩
  · obtain ⟨what, rfl⟩ := exists_eq_of_mem_readDependencies mem
    exact ⟨what, by simp [toString, String.append_assoc]⟩

theorem namesLine_of_mem_lineNotices {line : List Char}
    (mem : n ∈ lineNotices path header number line) : NamesLine path number n := by
  rw [lineNotices] at mem
  split at mem
  · cases mem
  · cases mem
  · exact namesLine_of_mem_listing mem

/-- What is told of the row on a line names this line exactly if no line above it is blank, or if
nothing is told. -/
theorem forall_namesLine_iff (mem : l ∈ bodyLines s) :
    (∀ n ∈ toldOf path s l, NamesLine path l.2 n) ↔
      (toldOf path s l ≠ [] → blanksAbove (Text.allLines s) l.2 = 0) := by
  constructor
  · intro names some
    obtain ⟨n, told⟩ := List.exists_mem_of_ne_nil _ some
    have same := (names n told).unique (namesLine_of_mem_lineNotices told)
    -- lines are numbered from 1 on
    have positive : 1 ≤ l.2 := by
      have there := List.mem_of_mem_tail ((List.takeWhile_sublist _).subset mem)
      exact (List.mem_zipIdx there).1
    omega
  · intro none n told
    have names := namesLine_of_mem_lineNotices told
    rwa [none (List.ne_nil_of_mem told), Nat.sub_zero] at names

/-- What is told of a file is told of one line below its header after the other. It names the line
less the number of blank lines above it, so that all of it names the lines of the rows exactly if no
blank line stands above a line of which something is told. -/
theorem run_load_namesLine_iff (path : String) (columns : missingColumns (headerOf s) = [])
    (keeps : Rows.KeepsLines (Text.allLines s)) :
    (load path (Utf8.encode s)).run.2 = (bodyLines s).flatMap (toldOf path s) ∧
      (∀ l ∈ bodyLines s, ∀ n ∈ toldOf path s l,
        NamesLine path (l.2 - blanksAbove (Text.allLines s) l.2) n) ∧
      ((∀ l ∈ bodyLines s, ∀ n ∈ toldOf path s l, NamesLine path l.2 n) ↔
        ∀ l ∈ bodyLines s, toldOf path s l ≠ [] → blanksAbove (Text.allLines s) l.2 = 0) :=
  ⟨run_load_snd_eq_flatMap path columns keeps, fun _ _ _ told => namesLine_of_mem_lineNotices told,
    forall₂_congr fun _ mem => forall_namesLine_iff mem⟩

/-- Lines that end in all three ways, the last one not at all. A field in quotation marks has a tab
in it, and those of the last line are not closed. -/
def mixedLines : List (List Char) :=
  ["asset_id\trelative_path\tdependencies\r\n".toList,
    "garbage\t\"a\tb\"\t\r".toList,
    "\r".toList,
    "00000000000000000000000000000001\t\td\n".toList,
    "\n".toList,
    "\r\n".toList,
    "\te\t\"".toList]

/-- The text of these lines. -/
def mixedText : List Char := mixedLines.flatten

theorem allLines_mixedText : Text.allLines mixedText = mixedLines := by decide +kernel

theorem run_load_namesLine_iff_mixedText :
    missingColumns (headerOf mixedText) = [] ∧ Rows.KeepsLines (Text.allLines mixedText) ∧
      (load "cat.tsv" (Utf8.encode mixedText)).run.2 =
        (bodyLines mixedText).flatMap (toldOf "cat.tsv" mixedText) ∧
      (∀ l ∈ bodyLines mixedText, ∀ n ∈ toldOf "cat.tsv" mixedText l,
        NamesLine "cat.tsv" (l.2 - blanksAbove (Text.allLines mixedText) l.2) n) ∧
      ((∀ l ∈ bodyLines mixedText, ∀ n ∈ toldOf "cat.tsv" mixedText l,
          NamesLine "cat.tsv" l.2 n) ↔
        ∀ l ∈ bodyLines mixedText, toldOf "cat.tsv" mixedText l ≠ [] →
          blanksAbove (Text.allLines mixedText) l.2 = 0) := by
  have columns : missingColumns (headerOf mixedText) = [] := by
    rw [headerOf, allLines_mixedText]
    decide +kernel
  have keeps : Rows.KeepsLines (Text.allLines mixedText) := by
    rw [allLines_mixedText]
    decide +kernel
  exact ⟨columns, keeps, run_load_namesLine_iff "cat.tsv" columns keeps⟩

/-- A text with a blank line below its header. -/
def skippedBlank : List Char :=
  "asset_id\trelative_path\tdependencies\n\ngarbage\tb.txt\t\n".toList

/-- The row on the third line is passed over, and the warning names the second. -/
theorem not_namesLine_skippedBlank :
    missingColumns (headerOf skippedBlank) = [] ∧ Rows.KeepsLines (Text.allLines skippedBlank) ∧
      (load "cat.tsv" (Utf8.encode skippedBlank)).run.2 =
        [.warning "cat.tsv:2: skipping row, invalid asset guid: 'garbage'"] ∧
      ¬ ∀ l ∈ bodyLines skippedBlank, ∀ n ∈ toldOf "cat.tsv" skippedBlank l,
        NamesLine "cat.tsv" l.2 n := by
  have told : toldOf "cat.tsv" skippedBlank ("garbage\tb.txt\t\n".toList, 3) =
      [.warning "cat.tsv:2: skipping row, invalid asset guid: 'garbage'"] := by decide +kernel
  have there : ("garbage\tb.txt\t\n".toList, 3) ∈ bodyLines skippedBlank := by decide +kernel
  refine ⟨by decide +kernel, by decide +kernel, by decide +kernel, fun names => ?_⟩
  have third := names _ there (.warning "cat.tsv:2: skipping row, invalid asset guid: 'garbage'")
    (by rw [told]; exact List.mem_singleton_self _)
  have second : NamesLine "cat.tsv" 2
      (.warning "cat.tsv:2: skipping row, invalid asset guid: 'garbage'") :=
    ⟨"row, invalid asset guid: 'garbage'", rfl⟩
  exact absurd (third.unique second) (by decide)

end PackPlan.Catalog
