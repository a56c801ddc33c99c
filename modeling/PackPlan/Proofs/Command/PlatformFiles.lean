import PackPlan.Command.Bundles
import PackPlan.Proofs.Archive.Discovery
import PackPlan.Proofs.Files.Rewriting

/-!
# The files of platforms

What is made for a platform is written beside the file that the user names, under a name with
the platform in it. The files of two platforms are told apart by the stems of these names, and
a last name that ends in a dot makes the platform its extension, which is then replaced.

## Main definitions

* `FilePath.EndsInDot` — the last name is one with a dot behind it

## Main results

* `FilePath.stem_mark`, `FilePath.stem_mark_of_endsInDot` — the stem of the file of a platform
* `Platform.exists_of_mark?` — which file belongs to a platform
* `Platform.outputs_eq_iff` — whether two platforms have one output
-/

namespace PackPlan

/-! ### Names with a mark -/

namespace FilePath

variable {s front tag : List Char} {p q : FilePath} {name name' ext : String}

theorem isLetter_of_notMem (noDot : '.' ∉ s) : ∀ c ∈ s.reverse, decide (c ≠ '.') = true := by
  intro c mem
  apply decide_eq_true
  rintro rfl
  exact noDot (List.mem_reverse.1 mem)

theorem cutName_of_notMem (noDot : '.' ∉ s) : cutName s = (s, []) := by
  have after : s.reverse.takeWhile (· ≠ '.') = s.reverse :=
    List.takeWhile_eq_self_iff.2 (isLetter_of_notMem noDot)
  rw [cutName, after, List.length_reverse, if_pos (Or.inl (Nat.le_succ _))]

theorem cutName_dot_cons (noDot : '.' ∉ s) : cutName ('.' :: s) = ('.' :: s, []) := by
  have short : ('.' :: s).length ≤ (('.' :: s).reverse.takeWhile (· ≠ '.')).length + 1 := by
    rw [List.reverse_cons, List.takeWhile_append_of_pos (isLetter_of_notMem noDot),
      List.length_append, List.length_cons, List.length_reverse]
    omega
  rw [cutName, if_pos (Or.inl short)]

theorem cutName_concat_dot (front : List Char) :
    cutName (front ++ ['.']) = (front ++ ['.'], []) := by
  have none : ((front ++ ['.']).reverse.takeWhile (· ≠ '.')).length = 0 := by
    rw [List.reverse_append, List.reverse_singleton, List.singleton_append,
      List.takeWhile_cons_of_neg (by simp), List.length_nil]
  rw [cutName, none, if_pos (Or.inr rfl)]

/-- A name that holds a dot is parted by its last one. -/
theorem exists_last_dot (mem : '.' ∈ s) :
    ∃ front letters, s = front ++ '.' :: letters ∧ '.' ∉ letters := by
  obtain ⟨back, rest, parted, noDot⟩ := List.eq_append_cons_of_mem (List.mem_reverse.2 mem)
  refine ⟨rest.reverse, back.reverse, ?_, fun h => noDot (List.mem_reverse.1 h)⟩
  rw [← List.reverse_reverse s, parted, List.reverse_append, List.reverse_cons,
    List.append_assoc, List.singleton_append]

/-- What is put between the stem and the suffix of a name lengthens the stem, unless a dot
ends the name. -/
theorem cutName_mark (plain : ∀ front, front ≠ [] → s ≠ front ++ ['.']) (noDot : '.' ∉ tag) :
    cutName ((cutName s).1 ++ tag ++ (cutName s).2) = ((cutName s).1 ++ tag, (cutName s).2) := by
  -- the mark comes before the last dot, which parts the longer name in the same way
  by_cases mem : '.' ∈ s
  · obtain ⟨front, letters, rfl, last⟩ := exists_last_dot mem
    have joined : '.' ∉ letters ++ tag := by simp [last, noDot]
    cases front with
    | nil =>
      -- a dot that is the first character starts no suffix
      rw [List.nil_append, cutName_dot_cons last, List.append_nil, List.cons_append,
        cutName_dot_cons joined]
    | cons c front =>
      have full : c :: front ≠ [] := List.cons_ne_nil _ _
      have letter : letters ≠ [] := by
        rintro rfl
        exact plain _ full rfl
      have longer : c :: front ++ tag ≠ [] := by simp
      rw [cutName_append full letter last, cutName_append longer letter last]
  · have joined : '.' ∉ s ++ tag := by simp [mem, noDot]
    rw [cutName_of_notMem mem, List.append_nil, cutName_of_notMem joined]

/-! ### Paths with a mark -/

/-- The last name of a path is a name with a dot behind it. -/
def EndsInDot (p : FilePath) : Prop := ∃ front, front ≠ [] ∧ p.name.toList = front ++ ['.']

theorem rename_rename (p : FilePath) (name name' : String) :
    (p.rename name).rename name' = p.rename name' := by
  rw [rename, rename, List.dropLast_concat]
  rfl

theorem parent_rename (p : FilePath) (name : String) : (p.rename name).parent = p.parent := by
  rw [parent, rename, List.dropLast_concat]
  rfl

theorem rename_inj : p.rename name = p.rename name' ↔ name = name' := by
  constructor
  · intro same
    rw [← name_rename p name, same, name_rename]
  · rintro rfl
    rfl

theorem eq_rename_of_withName (h : p.withName name = .ok q) : q = p.rename name := by
  rw [withName] at h
  split at h
  · cases h
  · split at h
    · cases h
      rfl
    · cases h

/-- An extension with its dot. -/
def dotted (ext : String) : String := if ext.toList.head? = some '.' then ext else "." ++ ext

theorem eq_rename_of_withExtension (h : (p.rename name).withExtension ext = .ok q) :
    q = p.rename ((p.rename name).stem ++ dotted ext) := by
  rw [eq_rename_of_withName h, rename_rename, dotted]

theorem stem_mark (plain : ¬ p.EndsInDot) {mark : String} (noDot : '.' ∉ mark.toList) :
    (p.rename (p.stem ++ mark ++ p.suffix)).stem = p.stem ++ mark := by
  have plain : ∀ front, front ≠ [] → p.name.toList ≠ front ++ ['.'] :=
    fun front full same => plain ⟨front, full, same⟩
  rw [stem, name_rename, String.toList_append, String.toList_append, stem, suffix,
    String.toList_ofList, String.toList_ofList, cutName_mark plain noDot, String.ofList_append,
    String.ofList_toList]

/-- Behind a dot that ends the name, a mark is taken for an extension. -/
theorem stem_mark_of_endsInDot (h : p.name.toList = front ++ ['.']) (full : front ≠ [])
    {mark : String} (nonempty : mark.toList ≠ []) (noDot : '.' ∉ mark.toList) :
    (p.rename (p.stem ++ mark ++ p.suffix)).stem = String.ofList front := by
  have marked : (p.stem ++ mark ++ p.suffix).toList = front ++ '.' :: mark.toList := by
    rw [String.toList_append, String.toList_append, stem, suffix, h, cutName_concat_dot,
      String.toList_ofList, String.toList_ofList, List.append_nil, List.append_assoc,
      List.singleton_append]
  rw [stem, name_rename, marked, cutName_append full nonempty noDot]

end FilePath

/-! ### The files of two platforms -/

namespace Platform

variable {list bundle file : FilePath} {p q ext : String}

/-- The name of no platform holds a dot. -/
theorem noDot_of_mem_known : ∀ p ∈ known, '.' ∉ p.toList := by
  decide

/-- What is put into the name of a file for a platform. -/
def markOf (platform : String) : String := "_" ++ platform

theorem noDot_markOf (isKnown : p ∈ known) : '.' ∉ (markOf p).toList := by
  have other := noDot_of_mem_known p isKnown
  simp [markOf, other]

/-- A file belongs to a platform already, or the platform is put into its name. -/
theorem exists_of_mark? (h : mark? list p = .ok (some file)) :
    identifier? list = some p ∧ file = list ∨
      identifier? list = none ∧ file = list.rename (list.stem ++ markOf p ++ list.suffix) := by
  rw [mark?] at h
  split at h
  · next other found =>
    by_cases same : other = p
    · rw [if_pos same] at h
      cases h
      exact .inl ⟨same ▸ found, rfl⟩
    · rw [if_neg same] at h
      cases h
  · next found =>
    refine .inr ⟨found, ?_⟩
    cases named : list.withName (list.stem ++ "_" ++ p ++ list.suffix) with
    | error cause =>
      rw [named] at h
      cases h
    | ok marked =>
      rw [named] at h
      cases h
      rw [FilePath.eq_rename_of_withName named, markOf, ← String.append_assoc]

/-- If a file can be marked for two platforms it belongs to neither. -/
theorem eq_rename_of_mark? {f g : FilePath} (other : p ≠ q) (first : mark? list p = .ok (some f))
    (second : mark? list q = .ok (some g)) :
    f = list.rename (list.stem ++ markOf p ++ list.suffix) ∧
      g = list.rename (list.stem ++ markOf q ++ list.suffix) := by
  rcases exists_of_mark? first with ⟨here, -⟩ | ⟨none, marked⟩
  · rcases exists_of_mark? second with ⟨there, -⟩ | ⟨none, -⟩
    · rw [here] at there
      exact absurd (Option.some.inj there) other
    · rw [here] at none
      cases none
  · rcases exists_of_mark? second with ⟨there, -⟩ | ⟨-, marked'⟩
    · rw [none] at there
      cases there
    · exact ⟨marked, marked'⟩

/-- The stems of the files of two platforms are one exactly if a dot ends the name that both
are made from. -/
theorem stem_mark_eq_iff (isKnown : p ∈ known) (isKnown' : q ∈ known) (other : p ≠ q) :
    (list.rename (list.stem ++ markOf p ++ list.suffix)).stem =
      (list.rename (list.stem ++ markOf q ++ list.suffix)).stem ↔ list.EndsInDot := by
  have noDot := noDot_markOf isKnown
  have noDot' := noDot_markOf isKnown'
  constructor
  · intro same
    by_contra plain
    rw [FilePath.stem_mark plain noDot, FilePath.stem_mark plain noDot', markOf, markOf] at same
    exact other (by simpa using same)
  · rintro ⟨front, full, ends⟩
    rw [FilePath.stem_mark_of_endsInDot ends full (by simp [markOf]) noDot,
      FilePath.stem_mark_of_endsInDot ends full (by simp [markOf]) noDot']

/-- Two outputs with one extension stand side by side, and are one exactly if a dot ends the
name that both are made from. -/
theorem withExtension_eq_iff (isKnown : p ∈ known) (isKnown' : q ∈ known) (other : p ≠ q)
    {marked marked' f g : FilePath} (first : mark? list p = .ok (some marked))
    (second : mark? list q = .ok (some marked')) (made : marked.withExtension ext = .ok f)
    (made' : marked'.withExtension ext = .ok g) :
    f.parent = list.parent ∧ g.parent = list.parent ∧ (f = g ↔ list.EndsInDot) := by
  obtain ⟨rfl, rfl⟩ := eq_rename_of_mark? other first second
  rw [FilePath.eq_rename_of_withExtension made, FilePath.eq_rename_of_withExtension made']
  refine ⟨FilePath.parent_rename .., FilePath.parent_rename .., ?_⟩
  rw [FilePath.rename_inj, String.append_left_inj, stem_mark_eq_iff isKnown isKnown' other]

theorem exists_mark?_of_planFile (h : HintFiles.planFile list p = .ok file) :
    ∃ marked, mark? list p = .ok (some marked) ∧
      marked.withExtension HintFiles.planExtension = .ok file := by
  rw [HintFiles.planFile] at h
  obtain ⟨marked?, found, h⟩ := exists_of_bind_ok h
  cases marked? with
  | none => cases h
  | some marked => exact ⟨marked, eq_ok_of_mapError found, eq_ok_of_mapError h⟩

theorem mark?_of_bundleFor (h : Bundles.bundleFor bundle p = .ok file) :
    mark? bundle p = .ok (some file) := by
  rw [Bundles.bundleFor] at h
  obtain ⟨marked?, found, h⟩ := exists_of_bind_ok h
  cases marked? with
  | none => cases h
  | some marked =>
    cases h
    exact eq_ok_of_mapError found

/-- The hint files of the plans of two platforms stand side by side, and so do the logs of
their bundles. They are one file exactly if the name that they are made from ends in a dot. -/
theorem outputs_eq_iff (isKnown : p ∈ known) (isKnown' : q ∈ known) (other : p ≠ q) :
    (∀ f g, HintFiles.planFile list p = .ok f → HintFiles.planFile list q = .ok g →
      f.parent = list.parent ∧ g.parent = list.parent ∧ (f = g ↔ list.EndsInDot)) ∧
    ∀ marked marked' f g, Bundles.bundleFor bundle p = .ok marked →
      Bundles.bundleFor bundle q = .ok marked' →
      Bundles.logFile marked = .ok f → Bundles.logFile marked' = .ok g →
      f.parent = bundle.parent ∧ g.parent = bundle.parent ∧ (f = g ↔ bundle.EndsInDot) := by
  constructor
  · intro f g first second
    obtain ⟨marked, named, made⟩ := exists_mark?_of_planFile first
    obtain ⟨marked', named', made'⟩ := exists_mark?_of_planFile second
    exact withExtension_eq_iff isKnown isKnown' other named named' made made'
  · intro marked marked' f g first second made made'
    exact withExtension_eq_iff isKnown isKnown' other (mark?_of_bundleFor first)
      (mark?_of_bundleFor second) made made'

/-- The outputs of two platforms that are made from names without a dot. -/
theorem outputs_ne_plainNames : "pc" ∈ known ∧ "linux" ∈ known ∧ "pc" ≠ "linux" ∧
    HintFiles.planFile ⟨"", ["a"]⟩ "pc" = .ok ⟨"", ["a_pc.pak.assethints"]⟩ ∧
    HintFiles.planFile ⟨"", ["a"]⟩ "linux" = .ok ⟨"", ["a_linux.pak.assethints"]⟩ ∧
    Bundles.bundleFor ⟨"", ["b"]⟩ "pc" = .ok ⟨"", ["b_pc"]⟩ ∧
    Bundles.bundleFor ⟨"", ["b"]⟩ "linux" = .ok ⟨"", ["b_linux"]⟩ ∧
    Bundles.logFile ⟨"", ["b_pc"]⟩ = .ok ⟨"", ["b_pc.proflog"]⟩ ∧
    Bundles.logFile ⟨"", ["b_linux"]⟩ = .ok ⟨"", ["b_linux.proflog"]⟩ ∧
    ¬ (⟨"", ["a"]⟩ : FilePath).EndsInDot ∧ ¬ (⟨"", ["b"]⟩ : FilePath).EndsInDot := by
  have isKnown : "pc" ∈ known := by decide
  have isKnown' : "linux" ∈ known := by decide
  have other : "pc" ≠ "linux" := by decide
  have plan : HintFiles.planFile ⟨"", ["a"]⟩ "pc" = .ok ⟨"", ["a_pc.pak.assethints"]⟩ := by
    decide +kernel
  have plan' : HintFiles.planFile ⟨"", ["a"]⟩ "linux" =
      .ok ⟨"", ["a_linux.pak.assethints"]⟩ := by
    decide +kernel
  have bundle : Bundles.bundleFor ⟨"", ["b"]⟩ "pc" = .ok ⟨"", ["b_pc"]⟩ := by decide +kernel
  have bundle' : Bundles.bundleFor ⟨"", ["b"]⟩ "linux" = .ok ⟨"", ["b_linux"]⟩ := by
    decide +kernel
  have log : Bundles.logFile ⟨"", ["b_pc"]⟩ = .ok ⟨"", ["b_pc.proflog"]⟩ := by decide +kernel
  have log' : Bundles.logFile ⟨"", ["b_linux"]⟩ = .ok ⟨"", ["b_linux.proflog"]⟩ := by
    decide +kernel
  obtain ⟨plans, logs⟩ :=
    @outputs_eq_iff ⟨"", ["a"]⟩ ⟨"", ["b"]⟩ "pc" "linux" isKnown isKnown' other
  have plans := (plans _ _ plan plan').2.2
  have logs := (logs _ _ _ _ bundle bundle' log log').2.2
  exact ⟨isKnown, isKnown', other, plan, plan', bundle, bundle', log, log',
    fun ends => absurd (plans.2 ends) (by decide),
    fun ends => absurd (logs.2 ends) (by decide)⟩

/-- The plans of two platforms have one hint file, and their bundles one log. -/
theorem outputs_eq_trailingDot : "pc" ∈ known ∧ "linux" ∈ known ∧ "pc" ≠ "linux" ∧
    HintFiles.planFile ⟨"", ["a."]⟩ "pc" = .ok ⟨"", ["a.pak.assethints"]⟩ ∧
    HintFiles.planFile ⟨"", ["a."]⟩ "linux" = .ok ⟨"", ["a.pak.assethints"]⟩ ∧
    Bundles.bundleFor ⟨"", ["a."]⟩ "pc" = .ok ⟨"", ["a._pc"]⟩ ∧
    Bundles.bundleFor ⟨"", ["a."]⟩ "linux" = .ok ⟨"", ["a._linux"]⟩ ∧
    Bundles.logFile ⟨"", ["a._pc"]⟩ = .ok ⟨"", ["a.proflog"]⟩ ∧
    Bundles.logFile ⟨"", ["a._linux"]⟩ = .ok ⟨"", ["a.proflog"]⟩ := by
  decide +kernel

end Platform

end PackPlan
