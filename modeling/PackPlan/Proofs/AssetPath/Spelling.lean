import PackPlan.Proofs.AssetPath

/-!
# The spelling of normal forms

Normal forms are known by their spelling alone: components with a slash between neighbours, none of
them empty or the directory itself, steps up before names, and all of it in lower case. Nothing is
lost by this description: every text that is spelled so is the normal form of a path, namely of
itself between two slashes, which keep its blanks from being trimmed. Without blanks at its ends it
is the normal form of itself.

## Main definitions

* `AssetPath.IsSpelledOut` — text in the spelling of normal forms

## Main results

* `AssetPath.isNormal_iff_isSpelledOut` — normal forms are the texts in this spelling
* `AssetPath.IsNormal.normalizeChars_between` — a normal form is that of itself between slashes
* `AssetPath.normalize_eq_iff_isSpelledOut` — which texts are normal forms, and which of themselves
-/

namespace PackPlan.AssetPath

variable {s piece : List Char}

/-- Text in the spelling of normal forms. -/
structure IsSpelledOut (s : List Char) : Prop where
  /-- Unless the text is empty, no component is empty or the directory itself. -/
  full : s ≠ [] → ∀ piece ∈ Text.splitAt '/' s, piece ≠ [] ∧ piece ≠ here
  /-- Steps up come before all other components. -/
  upFirst : ∃ k names, Text.splitAt '/' s = List.replicate k above ++ names ∧ above ∉ names
  /-- Backslashes do not occur. -/
  forward : '\\' ∉ s
  /-- Lower-casing leaves the text as it is. -/
  small : Text.lower s = s

/-! ### Components between slashes -/

theorem IsReduced.ne_here_of_mem {taken : List (List Char)} (reduced : IsReduced taken)
    (mem : piece ∈ taken) : piece ≠ here := by
  obtain ⟨names, k, each, rfl⟩ := reduced
  rcases List.mem_append.1 mem with name | up
  · exact (each piece name).ne_here
  · rw [List.eq_of_mem_replicate up]
    decide

theorem IsNormal.isSpelledOut (normal : IsNormal s) : IsSpelledOut s := by
  have small : Text.lower s = s := Text.lower_eq_self normal.small
  obtain ⟨taken, reduced, rfl⟩ := normal.reduced
  by_cases empty : taken = []
  · subst empty
    exact ⟨fun nonempty => absurd rfl nonempty, ⟨0, [[]], rfl, by decide⟩, normal.forward, small⟩
  have cut : Text.splitAt '/' (Text.join ['/'] taken.reverse) = taken.reverse :=
    Text.splitAt_join (by simpa using empty) fun piece mem =>
      (reduced.ne_nil_of_mem (List.mem_reverse.1 mem)).2
  refine ⟨fun _ piece mem => ?_, ?_, normal.forward, small⟩
  · have there : piece ∈ taken := List.mem_reverse.1 (cut ▸ mem)
    exact ⟨(reduced.ne_nil_of_mem there).1, reduced.ne_here_of_mem there⟩
  · obtain ⟨names, k, each, rfl⟩ := reduced
    refine ⟨k, names.reverse, ?_, fun up => ?_⟩
    · rw [cut, List.reverse_append, List.reverse_replicate]
    · exact (each above (List.mem_reverse.1 up)).ne_above rfl

theorem IsSpelledOut.isNormal (spelled : IsSpelledOut s) : IsNormal s := by
  refine ⟨fun c mem => ?_, spelled.forward, ?_⟩
  · rw [← spelled.small] at mem
    exact Text.isSmall_of_mem_lower mem
  by_cases empty : s = []
  · exact ⟨[], IsReduced.nil, empty⟩
  -- components are taken from the left, so the latest comes first
  obtain ⟨k, names, cut, noUp⟩ := spelled.upFirst
  refine ⟨names.reverse ++ List.replicate k above, ⟨names.reverse, k, fun name mem => ?_, rfl⟩, ?_⟩
  · have here : name ∈ names := List.mem_reverse.1 mem
    have there : name ∈ Text.splitAt '/' s := cut ▸ List.mem_append_right _ here
    obtain ⟨ne_nil, ne_here⟩ := spelled.full empty name there
    exact ⟨ne_nil, ne_here, fun up => noUp (up ▸ here), (Text.not_mem_of_mem_splitAt there).1⟩
  · rw [List.reverse_append, List.reverse_reverse, List.reverse_replicate, ← cut,
      Text.join_splitAt]

/-- Normal forms are the texts that are spelled out. -/
theorem isNormal_iff_isSpelledOut : IsNormal s ↔ IsSpelledOut s :=
  ⟨IsNormal.isSpelledOut, IsSpelledOut.isNormal⟩

/-! ### Normal forms of themselves -/

/-- A slash at the end adds no component. -/
theorem components_append_slash (nonempty : s ≠ []) : components (s ++ ['/']) = components s := by
  have lead : (s ++ ['/']).head? = s.head? := by
    obtain ⟨c, s, rfl⟩ := List.exists_cons_of_ne_nil nonempty
    rfl
  rw [components, components, lead, Text.splitAt_append_sep, Text.splitAt_nil, List.foldl_append,
    List.foldl_cons, List.foldl_nil]
  rfl

/-- The slashes around a normal form keep its blanks, and they go themselves. -/
theorem IsNormal.normalizeChars_between (normal : IsNormal s) :
    normalizeChars ('/' :: (s ++ ['/'])) = s := by
  have trimmed : Text.trim ('/' :: (s ++ ['/'])) = '/' :: (s ++ ['/']) := by
    rw [Text.trim_eq_self_iff, ← List.cons_append, List.getLast?_concat]
    constructor <;> rintro c ⟨⟩ <;> decide
  have forward : '\\' ∉ '/' :: (s ++ ['/']) := by
    simpa using normal.forward
  have small : ∀ c ∈ '/' :: (s ++ ['/']), Text.IsSmall c := by
    have slash : Text.IsSmall '/' := by decide +kernel
    simpa [slash, or_imp, forall_and] using normal.small
  rw [normalizeChars, trimmed, map_slash_eq_self forward, Text.lower_eq_self small, dropRoot]
  by_cases empty : s = []
  · subst empty
    rfl
  · rw [components_append_slash empty]
    obtain ⟨taken, reduced, rfl⟩ := normal.reduced
    rw [components_join reduced]

theorem exists_normalize_eq_iff {s : String} :
    (∃ path, normalize path = s) ↔ IsNormal s.toList := by
  constructor
  · rintro ⟨path, rfl⟩
    rw [normalize, String.toList_ofList]
    exact isNormal_normalizeChars path.toList
  · intro normal
    refine ⟨String.ofList ('/' :: (s.toList ++ ['/'])), ?_⟩
    rw [normalize, String.toList_ofList, normal.normalizeChars_between, String.ofList_toList]

theorem normalize_eq_self_iff {s : String} :
    normalize s = s ↔ IsNormal s.toList ∧ Text.trim s.toList = s.toList := by
  have chars : normalize s = s ↔ normalizeChars s.toList = s.toList := by
    rw [normalize, ← String.toList_inj, String.toList_ofList]
  constructor
  · intro same
    have normal : IsNormal s.toList := exists_normalize_eq_iff.1 ⟨s, same⟩
    exact ⟨normal, normal.normalizeChars_eq_self_iff.1 (chars.1 same)⟩
  · rintro ⟨normal, trimmed⟩
    exact chars.2 (normal.normalizeChars_eq_self trimmed)

/-- The normal forms of paths are the texts that are spelled out: components between slashes, none
empty or the directory itself, with steps up first, no backslash, and unchanged by lower-casing. Of
these exactly the ones that neither begin nor end in a blank are normalised to themselves. -/
theorem normalize_eq_iff_isSpelledOut :
    (∀ s : String, (∃ path, normalize path = s) ↔ IsSpelledOut s.toList) ∧
      ∀ s : String, normalize s = s ↔ IsSpelledOut s.toList ∧
        (∀ c ∈ s.toList.head?, Text.isBlank c = false) ∧
          ∀ c ∈ s.toList.getLast?, Text.isBlank c = false := by
  constructor
  · intro s
    rw [exists_normalize_eq_iff, isNormal_iff_isSpelledOut]
  · intro s
    rw [normalize_eq_self_iff, isNormal_iff_isSpelledOut, Text.trim_eq_self_iff]

/-- A step up stays where there is nothing to undo, and goes at a root. -/
example : normalize "..\\A/./b//../C" = "../a/c" ∧ normalize "//../a" = "a" := by decide

end PackPlan.AssetPath
