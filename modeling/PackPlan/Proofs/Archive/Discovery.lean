import Mathlib.Data.String.Basic
import PackPlan.Proofs.Archive.Containers
import PackPlan.Proofs.Files.Places
import PackPlan.Proofs.Pattern

/-!
# Which containers are found

A pattern that begins with a literal text finds the containers of a directory whose stems begin
with that text: those that have their canonical names and those that have legacy ones, each once
and in the order of the stems. Only a name that is too long keeps them from being found.

## Main definitions

* `Containers.startPattern` — the pattern of the stems that begin with a text
* `Containers.Starts` — a stem begins with a text
* `Containers.legacyPath` — where a container stands that has not been renamed
* `Containers.IsFound` — a stem of a file with one of the two names

## Main results

* `Containers.mem_stems_iff`, `Containers.exists_stems_iff` — which stems an extension has, and
  whether they can be found
* `Containers.exists_of_find_eq_ok` — the containers that are found, in order
* `Containers.exists_find_iff` — whether containers can be found at all
-/

namespace PackPlan

/-! ### Names -/

namespace FilePath

variable {stem letters : List Char} {d : FilePath}

theorem cutName_append (nonempty : stem ≠ []) (letter : letters ≠ []) (noDot : '.' ∉ letters) :
    cutName (stem ++ '.' :: letters) = (stem, '.' :: letters) := by
  have after : ((stem ++ '.' :: letters).reverse.takeWhile (· ≠ '.')).length = letters.length := by
    rw [List.reverse_append, List.reverse_cons, List.append_assoc, List.singleton_append,
      List.takeWhile_append_of_pos, List.takeWhile_cons_of_neg (by simp), List.append_nil,
      List.length_reverse]
    intro c mem
    have other : c ≠ '.' := by
      rintro rfl
      exact noDot (List.mem_reverse.1 mem)
    exact decide_eq_true other
  have total : (stem ++ '.' :: letters).length = stem.length + (letters.length + 1) := by
    rw [List.length_append, List.length_cons]
  have long : stem.length ≠ 0 := fun none => nonempty (List.length_eq_zero_iff.1 none)
  have some : letters.length ≠ 0 := fun none => letter (List.length_eq_zero_iff.1 none)
  have dot : stem.length + (letters.length + 1) - letters.length - 1 = stem.length := by omega
  rw [cutName, after, total, dot, if_neg (by omega), List.take_left, List.drop_left]

/-- The stem of a name is what stands before its extension. -/
theorem stem_below {stem ext : String} (extension : ext.toList = '.' :: letters)
    (nonempty : stem ≠ "") (letter : letters ≠ []) (noDot : '.' ∉ letters) :
    (Search.below d (stem ++ ext)).stem = stem := by
  have name : (Search.below d (stem ++ ext)).name = stem ++ ext := by
    rw [FilePath.name, Search.below, List.getLastD_concat]
  have full : stem.toList ≠ [] := fun empty => nonempty (String.toList_injective empty)
  rw [FilePath.stem, name, String.toList_append, extension, cutName_append full letter noDot,
    String.ofList_toList]

end FilePath

namespace Containers

variable {t : FileTree} {d : FilePath} {base place : Location} {start stem ext name : String}
  {all found : List String} {letters : List Char}

/-! ### Patterns -/

/-- The pattern of the stems that begin with a text. -/
def startPattern (start : String) : String :=
  String.ofList (Pattern.escape start.toList ++ ['*'])

/-- A text that can be the beginning of a name. -/
structure IsStart (start : String) : Prop where
  plain : '/' ∉ start.toList
  ne_empty : start ≠ ""

instance (start : String) : Decidable (IsStart start) :=
  decidable_of_iff ('/' ∉ start.toList ∧ start ≠ "") ⟨fun h => ⟨h.1, h.2⟩, fun h => ⟨h.1, h.2⟩⟩

/-- A stem begins with a text, and holds no slash. -/
structure Starts (start stem : String) : Prop where
  starts : start.toList <+: stem.toList
  plain : '/' ∉ stem.toList

instance (start stem : String) : Decidable (Starts start stem) :=
  decidable_of_iff (start.toList <+: stem.toList ∧ '/' ∉ stem.toList)
    ⟨fun h => ⟨h.1, h.2⟩, fun h => ⟨h.1, h.2⟩⟩

theorem Starts.ne_empty (h : Starts start stem) (isStart : IsStart start) : stem ≠ "" := by
  rintro rfl
  exact isStart.ne_empty (String.toList_injective (List.prefix_nil.1 h.starts))

/-- An extension is a dot and letters that say nothing in a pattern. -/
structure IsExtension (ext : String) (letters : List Char) : Prop where
  dot : ext.toList = '.' :: letters
  some : letters ≠ []
  plain : ∀ c ∈ letters, Pattern.isSpecial c = false ∧ c ≠ '/' ∧ c ≠ '.'

theorem isExtension_legacyExtension : IsExtension legacyExtension ['p', 'a', 'k'] :=
  ⟨by decide, by decide, by simp [Pattern.isSpecial]⟩

theorem isExtension_extension : IsExtension extension ['b', 'p', 'a', 'k'] :=
  ⟨by decide, by decide, by simp [Pattern.isSpecial]⟩

theorem IsExtension.not_special (h : IsExtension ext letters) :
    ∀ c ∈ ext.toList, Pattern.isSpecial c = false := by
  rw [h.dot, List.forall_mem_cons]
  exact ⟨by decide, fun c mem => (h.plain c mem).1⟩

theorem IsExtension.not_slash (h : IsExtension ext letters) : '/' ∉ ext.toList := by
  rw [h.dot, List.mem_cons, not_or]
  exact ⟨by decide, fun mem => (h.plain '/' mem).2.1 rfl⟩

theorem IsExtension.not_dot (h : IsExtension ext letters) : '.' ∉ letters :=
  fun mem => (h.plain '.' mem).2.2 rfl

theorem IsExtension.not_star (h : IsExtension ext letters) : '*' ∉ letters := by
  intro mem
  have special := (h.plain '*' mem).1
  cases special

theorem IsExtension.two_le (h : IsExtension ext letters) : 2 ≤ ext.toList.length := by
  have some := List.length_pos_iff.2 h.some
  rw [h.dot, List.length_cons]
  omega

/-- A stem with an extension is a name. -/
theorem IsExtension.isName (h : IsExtension ext letters) (nonempty : stem ≠ "")
    (plain : '/' ∉ stem.toList) : FilePath.IsName (stem ++ ext) := by
  have full : stem.toList.length ≠ 0 := fun none =>
    nonempty (String.toList_injective (List.length_eq_zero_iff.1 none))
  have length : (stem ++ ext).toList.length = stem.toList.length + ext.toList.length := by
    rw [String.toList_append, List.length_append]
  have two := h.two_le
  have long : ∀ name : String, name.toList.length ≤ 2 → stem ++ ext ≠ name := by
    rintro name short rfl
    omega
  refine ⟨?_, long "" (by decide), long "." (by decide), long ".." (by decide)⟩
  rw [String.toList_append, List.mem_append, not_or]
  exact ⟨plain, h.not_slash⟩

theorem toList_startPattern_append (start ext : String) : (startPattern start ++ ext).toList =
    Pattern.escape start.toList ++ '*' :: ext.toList := by
  rw [startPattern, String.toList_append, String.toList_ofList, List.append_assoc]
  rfl

/-- The names that the pattern asks for. -/
theorem holds_startPattern (h : IsExtension ext letters) (name : String) :
    Pattern.holds (startPattern start ++ ext).toList name.toList = true ↔
      ∃ stem : String, start.toList <+: stem.toList ∧ name = stem ++ ext := by
  rw [toList_startPattern_append, Pattern.holds_between start.toList h.not_special]
  constructor
  · rintro ⟨middle, whole⟩
    refine ⟨start ++ String.ofList middle, ?_, ?_⟩
    · rw [String.toList_append]
      exact List.prefix_append _ _
    · apply String.toList_injective
      rw [whole, String.toList_append, String.toList_append, String.toList_ofList,
        List.append_assoc]
  · rintro ⟨stem, ⟨middle, whole⟩, rfl⟩
    exact ⟨middle, by rw [String.toList_append, ← whole, List.append_assoc]⟩

theorem hasDoubleStar_cons {c : Char} (other : c ≠ '*') (s : List Char) :
    Search.hasDoubleStar (c :: s) = Search.hasDoubleStar s := by
  rw [Search.hasDoubleStar]
  rintro s' rfl
  exact absurd rfl other

theorem hasDoubleStar_of_not_mem {s : List Char} (none : '*' ∉ s) :
    Search.hasDoubleStar s = false := by
  induction s with
  | nil => rfl
  | cons c s ih =>
    rw [List.mem_cons, not_or] at none
    rw [hasDoubleStar_cons (Ne.symm none.1), ih none.2]

/-- A literal text has no two stars next to each other. -/
theorem hasDoubleStar_escape_append (s rest : List Char) :
    Search.hasDoubleStar (Pattern.escape s ++ rest) = Search.hasDoubleStar rest := by
  induction s with
  | nil => rfl
  | cons c s ih =>
    rw [Pattern.escape_cons, List.append_assoc, ← ih]
    by_cases special : Pattern.isSpecial c = true
    · rw [if_pos special]
      by_cases star : c = '*'
      · subst star
        rfl
      · rw [List.cons_append, List.cons_append, List.cons_append, List.nil_append,
          hasDoubleStar_cons (by decide), hasDoubleStar_cons star, hasDoubleStar_cons (by decide)]
    · have star : c ≠ '*' := by
        rintro rfl
        exact special rfl
      rw [if_neg special, List.cons_append, List.nil_append, hasDoubleStar_cons star]

theorem not_mem_escape {c : Char} {s : List Char} (plain : c ∉ s) (left : c ≠ '[')
    (right : c ≠ ']') : c ∉ Pattern.escape s := by
  induction s with
  | nil => exact List.not_mem_nil
  | cons d s ih =>
    rw [List.mem_cons, not_or] at plain
    rw [Pattern.escape_cons, List.mem_append, not_or]
    refine ⟨?_, ih plain.2⟩
    split
    · simp [left, right, plain.1]
    · simpa using plain.1

/-- The pattern has one level. -/
theorem levels_startPattern (isStart : IsStart start) (h : IsExtension ext letters) :
    Search.levels (startPattern start ++ ext) =
      .ok [.pattern (startPattern start ++ ext).toList] := by
  have two := h.two_le
  have text := toList_startPattern_append start ext
  have long : ∀ other : String, other.toList.length ≤ 2 → startPattern start ++ ext ≠ other := by
    intro other short same
    rw [← same, text, List.length_append, List.length_cons] at short
    omega
  have plain : '/' ∉ (startPattern start ++ ext).toList := by
    rw [text, List.mem_append, List.mem_cons, not_or, not_or]
    exact ⟨not_mem_escape isStart.plain (by decide) (by decide), by decide, h.not_slash⟩
  have single : Search.hasDoubleStar (startPattern start ++ ext).toList = false := by
    rw [text, hasDoubleStar_escape_append, h.dot]
    change Search.hasDoubleStar letters = false
    exact hasDoubleStar_of_not_mem h.not_star
  have starred : ((startPattern start ++ ext).toList.any
      fun c => c = '*' || c = '?' || c = '[') = true := by
    rw [text, List.any_append, List.any_cons]
    simp
  rw [Search.levels, FilePath.ofString_of_plain plain (long "" (by decide)) (long "." (by decide))]
  dsimp only
  rw [if_neg (not_not_intro rfl), List.mapM_cons, Search.levelOf, if_neg (long "**" (by decide)),
    if_neg (by rw [single]; exact Bool.false_ne_true), if_pos starred]
  rfl

/-! ### Stems -/

/-- The paths in a directory whose names a pattern asks for. -/
def candidates (t : FileTree) (d : FilePath) (base : Location) (pattern : String) :
    List FilePath :=
  ((t.names base).filter fun n => Pattern.holds pattern.toList n.toList).map (Search.below d)

/-- Nothing is asked of the paths of the last level. -/
theorem select_pattern (isAt : t.IsAt d base) (pattern : String) :
    Search.select t [.pattern pattern.toList] d = .ok (candidates t d base pattern) := by
  have kept : (candidates t d base pattern).filterM (fun q =>
      if ([] : List Search.Level).isEmpty then return true else t.isDir? q) =
        .ok (candidates t d base pattern) := filterM_of_forall fun _ _ => rfl
  have alone : ((candidates t d base pattern).map id).mapM (Search.select t []) =
      .ok ((candidates t d base pattern).map fun q => [q]) := mapM_map_eq_ok fun _ _ => rfl
  rw [List.map_id] at alone
  rw [Search.select, isAt.namesIn]
  change ((candidates t d base pattern).filterM _ >>= _) = _
  rw [kept]
  change ((candidates t d base pattern).mapM (Search.select t []) >>= _) = _
  rw [alone]
  exact congrArg Except.ok (List.flatMap_singleton' _)

theorem stems_startPattern (isStart : IsStart start) (h : IsExtension ext letters)
    (isAt : t.IsAt d base) : stems t d (startPattern start) ext =
      ((candidates t d base (startPattern start ++ ext)).filterM fun p =>
        (t.isFile? p).mapError Fault.files) >>= fun files => .ok (files.map (·.stem)) := by
  rw [stems, search, levels_startPattern isStart h, FileTree.isDir?_eq_true.2 ⟨base, isAt⟩]
  change ((Search.select t [.pattern (startPattern start ++ ext).toList] d).mapError Fault.files
    >>= _) = _
  rw [select_pattern isAt]
  rfl

theorem mem_candidates_iff (named : t.IsWellNamed) (h : IsExtension ext letters) {q : FilePath} :
    q ∈ candidates t d base (startPattern start ++ ext) ↔ ∃ stem, Starts start stem ∧
      q = Search.below d (stem ++ ext) ∧ t.node? (base ++ [stem ++ ext]) ≠ none := by
  simp only [candidates, List.mem_map, List.mem_filter, holds_startPattern h,
    FileTree.mem_names_iff]
  constructor
  · rintro ⟨_, ⟨there, stem, starts, rfl⟩, rfl⟩
    have plain := named _ ((FileTree.mem_keys_iff (by simp)).2 there) (stem ++ ext) (by simp)
    refine ⟨stem, ⟨starts, fun mem => plain ?_⟩, rfl, there⟩
    rw [String.toList_append]
    exact List.mem_append_left _ mem
  · rintro ⟨stem, starts, rfl, there⟩
    exact ⟨stem ++ ext, ⟨there, stem, starts.starts, rfl⟩, rfl⟩

/-- Where a file stands under a name, the path before the name leads to its directory. -/
theorem exists_isAt_of_isFile? (isName : FilePath.IsName name)
    (file : t.isFile? (Search.below d name) = .ok true) :
    ∃ base, t.IsAt d base ∧ t.node? (base ++ [name]) ≠ none := by
  obtain ⟨content, read⟩ := FileTree.isFile?_eq_true.1 file
  obtain ⟨place, led, there⟩ := FileTree.readBytes_eq_ok.1 read
  obtain ⟨base, isAt, rfl, -, -⟩ := FileTree.exists_isAt_of_locate_below isName led
  exact ⟨base, isAt, by rw [there]; exact nofun⟩

/-- A stem is found if a file stands under its name. -/
theorem mem_stems_iff (named : t.IsWellNamed) (isStart : IsStart start)
    (h : IsExtension ext letters) (isAt : t.IsAt d base)
    (searched : stems t d (startPattern start) ext = .ok all) :
    stem ∈ all ↔ Starts start stem ∧ t.isFile? (Search.below d (stem ++ ext)) = .ok true := by
  rw [stems_startPattern isStart h isAt] at searched
  obtain ⟨files, kept, searched⟩ := exists_of_bind_ok searched
  cases searched
  have stem_eq : ∀ {stem : String}, Starts start stem →
      (Search.below d (stem ++ ext)).stem = stem := fun starts =>
    FilePath.stem_below h.dot (starts.ne_empty isStart) h.some h.not_dot
  rw [List.mem_map]
  constructor
  · rintro ⟨q, mem, rfl⟩
    obtain ⟨there, file⟩ := (mem_filterM kept).1 mem
    obtain ⟨stem, starts, rfl, -⟩ := (mem_candidates_iff named h).1 there
    rw [stem_eq starts]
    exact ⟨starts, eq_ok_of_mapError file⟩
  · rintro ⟨starts, file⟩
    obtain ⟨base', isAt', there⟩ :=
      exists_isAt_of_isFile? (h.isName (starts.ne_empty isStart) starts.plain) file
    obtain rfl := isAt.unique isAt'
    refine ⟨Search.below d (stem ++ ext), (mem_filterM kept).2 ⟨?_, by rw [file]; rfl⟩,
      stem_eq starts⟩
    exact (mem_candidates_iff named h).2 ⟨stem, starts, rfl, there⟩

/-- Stems can be found if one can look at each of their files. -/
theorem exists_stems_iff (named : t.IsWellNamed) (isStart : IsStart start)
    (h : IsExtension ext letters) (isAt : t.IsAt d base) :
    (∃ all, stems t d (startPattern start) ext = .ok all) ↔
      ∀ stem, Starts start stem → t.node? (base ++ [stem ++ ext]) ≠ none →
        ∃ file, t.isFile? (Search.below d (stem ++ ext)) = .ok file := by
  rw [stems_startPattern isStart h isAt]
  constructor
  · rintro ⟨all, searched⟩ stem starts there
    obtain ⟨files, kept, -⟩ := exists_of_bind_ok searched
    obtain ⟨file, looked⟩ := exists_of_mem_filterM kept
      ((mem_candidates_iff named h).2 ⟨stem, starts, rfl, there⟩)
    exact ⟨file, eq_ok_of_mapError looked⟩
  · intro looks
    have tests : ∀ q ∈ candidates t d base (startPattern start ++ ext),
        ∃ file, (t.isFile? q).mapError Fault.files = .ok file := by
      intro q mem
      obtain ⟨stem, starts, rfl, there⟩ := (mem_candidates_iff named h).1 mem
      obtain ⟨file, looked⟩ := looks stem starts there
      exact ⟨file, by rw [looked]; rfl⟩
    obtain ⟨files, kept⟩ := exists_filterM_ok tests
    exact ⟨files.map (·.stem), by rw [kept]; rfl⟩

/-! ### Containers -/

/-- Where a container stands that has not been renamed. -/
def legacyPath (d : FilePath) (stem : String) : FilePath :=
  Search.below d (stem ++ legacyExtension)

/-- A file stands under one of the two names of a container whose stem begins with a text. -/
structure IsFound (t : FileTree) (d : FilePath) (start stem : String) : Prop where
  starts : Starts start stem
  file : t.isFile? (legacyPath d stem) = .ok true ∨ t.isFile? (container d stem) = .ok true

/-- Where there is no directory, nothing is found. -/
theorem isAt_or_eq_nil_of_find {paths : List FilePath} {pattern : String}
    (h : find t d pattern = .ok paths) : (∃ base, t.IsAt d base) ∨ paths = [] := by
  by_cases dir : t.isDir? d = .ok true
  · exact .inl (FileTree.isDir?_eq_true.1 dir)
  · -- the search of either extension succeeds, and has nothing
    have none : ∀ {ext : String} {all : List String}, stems t d pattern ext = .ok all →
        all = [] := by
      intro ext all searched
      obtain ⟨found, looked, searched⟩ := exists_of_bind_ok searched
      obtain ⟨files, kept, searched⟩ := exists_of_bind_ok searched
      obtain ⟨levels, -, looked⟩ := exists_of_bind_ok looked
      obtain ⟨isDir, yes, looked⟩ := exists_of_bind_ok looked
      have no : isDir ≠ true := by
        rintro rfl
        exact dir (eq_ok_of_mapError yes)
      rw [if_neg no] at looked
      cases looked
      cases kept
      exact (Except.ok.inj searched).symm
    obtain ⟨legacy, first, h⟩ := exists_of_bind_ok h
    obtain ⟨canonical, second, h⟩ := exists_of_bind_ok h
    rw [none first, none second] at h
    cases h
    exact .inr (by simp)

/-- Names that are all different are sorted strictly. -/
theorem pairwise_lt_mergeSort (distinct : all.Nodup) :
    (all.mergeSort fun a b => !(b < a)).Pairwise (· < ·) := by
  have sorted : (all.mergeSort fun a b => !(b < a)).Pairwise fun a b => (!(b < a)) = true := by
    apply List.pairwise_mergeSort
    · intro a b c
      simp only [Bool.not_eq_true', decide_eq_false_iff_not, not_lt]
      exact le_trans
    · intro a b
      simp only [Bool.or_eq_true, Bool.not_eq_true', decide_eq_false_iff_not, not_lt]
      exact le_total a b
  have distinct := (List.mergeSort_perm all fun a b => !(b < a)).nodup_iff.2 distinct
  refine (sorted.and distinct).imp fun {a b} h => ?_
  simp only [Bool.not_eq_true', decide_eq_false_iff_not, not_lt] at h
  exact lt_of_le_of_ne h.1 h.2

/-- The containers that are found, in the order of their stems. -/
theorem exists_of_find_eq_ok (named : t.IsWellNamed) (isStart : IsStart start)
    (isAt : t.IsAt d base) {paths : List FilePath}
    (h : find t d (startPattern start) = .ok paths) :
    ∃ all : List String, paths = all.map (container d) ∧ all.Pairwise (· < ·) ∧
      ∀ stem, stem ∈ all ↔ IsFound t d start stem := by
  obtain ⟨legacy, first, h⟩ := exists_of_bind_ok h
  obtain ⟨canonical, second, h⟩ := exists_of_bind_ok h
  cases h
  have mem : ∀ stem, stem ∈ (legacy ++ canonical).eraseDups.mergeSort (fun a b => !(b < a)) ↔
      IsFound t d start stem := by
    intro stem
    rw [List.mem_mergeSort, List.mem_eraseDups, List.mem_append,
      mem_stems_iff named isStart isExtension_legacyExtension isAt first,
      mem_stems_iff named isStart isExtension_extension isAt second, ← and_or_left]
    exact ⟨fun h => ⟨h.1, h.2⟩, fun h => ⟨h.1, h.2⟩⟩
  refine ⟨_, ?_, ?_, mem⟩
  · refine List.map_congr_left fun stem member => ?_
    exact join_eq_container ((mem stem).1 member).starts.plain
  · exact pairwise_lt_mergeSort (nodup_eraseDups _)

/-- Containers can be found if one can look at all that has the name of one. -/
theorem exists_find_iff (named : t.IsWellNamed) (isStart : IsStart start)
    (isAt : t.IsAt d base) : (∃ paths, find t d (startPattern start) = .ok paths) ↔
      ∀ stem, Starts start stem →
        (t.node? (base ++ [stem ++ legacyExtension]) ≠ none →
          ∃ file, t.isFile? (legacyPath d stem) = .ok file) ∧
        (t.node? (base ++ [stem ++ extension]) ≠ none →
          ∃ file, t.isFile? (container d stem) = .ok file) := by
  have both : (∃ paths, find t d (startPattern start) = .ok paths) ↔
      (∃ all, stems t d (startPattern start) legacyExtension = .ok all) ∧
        ∃ all, stems t d (startPattern start) extension = .ok all := by
    constructor
    · rintro ⟨paths, h⟩
      obtain ⟨legacy, first, h⟩ := exists_of_bind_ok h
      obtain ⟨canonical, second, -⟩ := exists_of_bind_ok h
      exact ⟨⟨legacy, first⟩, canonical, second⟩
    · rintro ⟨⟨legacy, first⟩, canonical, second⟩
      rw [find, first, second]
      exact ⟨_, rfl⟩
  rw [both, exists_stems_iff named isStart isExtension_legacyExtension isAt,
    exists_stems_iff named isStart isExtension_extension isAt]
  exact ⟨fun h stem starts => ⟨h.1 stem starts, h.2 stem starts⟩,
    fun h => ⟨fun stem starts => (h stem starts).1, fun stem starts => (h stem starts).2⟩⟩

end Containers

end PackPlan
