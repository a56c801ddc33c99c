import PackPlan.Files.Search
import PackPlan.Proofs.Identity
import PackPlan.Proofs.Results

/-!
# What a search finds

A search finds paths below the directory in which it begins, and it fails only if a name or a
path is too long for a file system.

## Main definitions

* `FileTree.IsWellNamed` — no name in a tree holds a slash
* `FilePath.IsBelow` — a path that leads on from a path by such names

## Main results

* `Search.isBelow_of_mem_select` — what is found lies below the start
* `Search.exists_eq_tooLong_of_select` — why a search fails
* `FilePath.join_eq_below` — joining a name to a path
* `FilePath.exists_text_below` — the text of a path below a path begins with that of the path
-/

namespace PackPlan

/-! ### Pieces of a text -/

namespace Text

variable {c sep : Char} {s piece : List Char}

theorem mem_consPiece {pieces : List (List Char)} (mem : piece ∈ consPiece c pieces) :
    piece = [c] ∨ piece ∈ pieces ∨ ∃ rest ∈ pieces, piece = c :: rest := by
  cases pieces with
  | nil => exact .inl (List.mem_singleton.1 mem)
  | cons first pieces =>
    rcases List.mem_cons.1 mem with rfl | member
    · exact .inr (.inr ⟨first, List.mem_cons_self, rfl⟩)
    · exact .inr (.inl (List.mem_cons_of_mem first member))

/-- A piece holds no separator, and only characters of the text. -/
theorem not_mem_of_mem_splitAt (mem : piece ∈ splitAt sep s) : sep ∉ piece ∧ piece ⊆ s := by
  induction s generalizing piece with
  | nil =>
    rw [splitAt_nil, List.mem_singleton] at mem
    subst mem
    exact ⟨List.not_mem_nil, List.Subset.refl []⟩
  | cons c s ih =>
    rw [splitAt_cons] at mem
    split at mem
    · rcases List.mem_cons.1 mem with rfl | member
      · exact ⟨List.not_mem_nil, List.nil_subset _⟩
      · exact (ih member).imp_right fun sub => List.subset_cons_of_subset c sub
    · next other =>
      rcases mem_consPiece mem with rfl | member | ⟨rest, member, rfl⟩
      · simp [Ne.symm other]
      · exact (ih member).imp_right fun sub => List.subset_cons_of_subset c sub
      · obtain ⟨absent, sub⟩ := ih member
        exact ⟨by simp [Ne.symm other, absent], List.cons_subset_cons c sub⟩

theorem mem_join_iff {sep : List Char} {pieces : List (List Char)} (other : c ∉ sep) :
    c ∈ join sep pieces ↔ ∃ piece ∈ pieces, c ∈ piece := by
  constructor
  · intro mem
    exact List.mem_flatten.1 ((mem_join mem).resolve_left other)
  · rintro ⟨piece, member, mem⟩
    induction pieces with
    | nil => exact absurd member List.not_mem_nil
    | cons first pieces ih =>
      cases pieces with
      | nil =>
        rw [List.mem_singleton.1 member] at mem
        simpa [join] using mem
      | cons next pieces =>
        rw [join, List.intercalate_cons_cons, List.append_assoc, List.mem_append, List.mem_append]
        rcases List.mem_cons.1 member with rfl | later
        · exact .inl mem
        · exact .inr (.inr (ih later))

/-- The last of several pieces stands after what the others make up. -/
theorem exists_join_concat (sep : List Char) (pieces : List (List Char)) :
    ∃ front, ∀ piece, join sep (pieces ++ [piece]) = front ++ piece := by
  induction pieces with
  | nil => exact ⟨[], fun piece => by simp [join]⟩
  | cons first pieces ih =>
    obtain ⟨front, whole⟩ := ih
    refine ⟨first ++ sep ++ front, fun piece => ?_⟩
    obtain ⟨next, later, split⟩ := List.exists_cons_of_ne_nil
      (List.append_ne_nil_of_right_ne_nil pieces (List.cons_ne_nil piece []))
    rw [List.append_assoc, ← whole piece, List.cons_append, split, join, join,
      List.intercalate_cons_cons]

end Text

/-! ### Paths below a path -/

namespace FilePath

variable {p q r : FilePath} {name : String}

/-- A path that leads on from a path by names without slashes. -/
def IsBelow (p q : FilePath) : Prop :=
  q.root = p.root ∧ ∃ names, q.parts = p.parts ++ names ∧ ∀ n ∈ names, '/' ∉ n.toList

theorem IsBelow.refl (p : FilePath) : p.IsBelow p :=
  ⟨rfl, [], (List.append_nil _).symm, by simp⟩

theorem IsBelow.trans (first : p.IsBelow q) (second : q.IsBelow r) : p.IsBelow r := by
  obtain ⟨root, names, parts, plain⟩ := first
  obtain ⟨root', names', parts', plain'⟩ := second
  refine ⟨root'.trans root, names ++ names', ?_, ?_⟩
  · rw [parts', parts, List.append_assoc]
  · rw [List.forall_mem_append]
    exact ⟨plain, plain'⟩

theorem isBelow_below (p : FilePath) (plain : '/' ∉ name.toList) :
    p.IsBelow (Search.below p name) := ⟨rfl, [name], rfl, by simpa using plain⟩

theorem not_mem_of_mem_namesOf {s : List Char} (mem : name ∈ namesOf s) :
    '/' ∉ name.toList ∧ name.toList ⊆ s := by
  obtain ⟨piece, member, rfl⟩ := List.mem_map.1 mem
  rw [String.toList_ofList]
  exact Text.not_mem_of_mem_splitAt (List.mem_filter.1 member).1

/-- A text without slashes is the name that it denotes. -/
theorem ofString_of_plain (plain : '/' ∉ name.toList) (nonempty : name ≠ "") (dot : name ≠ ".") :
    ofString name = ⟨"", [name]⟩ := by
  have noSlash : name.toList.takeWhile (· = '/') = [] := by
    cases h : name.toList with
    | nil => rfl
    | cons c s =>
      rw [h] at plain
      rw [List.takeWhile_cons_of_neg]
      simpa using fun same => plain (by rw [same]; exact List.mem_cons_self)
  have full : name.toList ≠ [] := fun h => nonempty (String.toList_injective h)
  have noDot : name.toList ≠ ['.'] := fun h => dot (String.toList_injective h)
  rw [ofString, rootOf, noSlash, namesOf, Numeral.splitAt_of_not_mem plain,
    List.filter_cons_of_pos (by simp [full, noDot]), List.filter_nil, List.map_singleton,
    String.ofList_toList]
  rfl

theorem join_eq_below (p : FilePath) (plain : '/' ∉ name.toList) (nonempty : name ≠ "")
    (dot : name ≠ ".") : p.join name = Search.below p name := by
  rw [join, ofString_of_plain plain nonempty dot]
  rfl

theorem toList_text (nonempty : p.parts ≠ []) :
    p.text.toList = p.root.toList ++ Text.join ['/'] (p.parts.map String.toList) := by
  rw [text, if_neg fun h => nonempty h.2, String.toList_append, String.toList_intercalate]
  rfl

/-- The text of a path below a path is the name after a text that only depends on the path. -/
theorem exists_text_below (p : FilePath) :
    ∃ front : List Char, ∀ name, (Search.below p name).text.toList = front ++ name.toList := by
  obtain ⟨front, whole⟩ := Text.exists_join_concat ['/'] (p.parts.map String.toList)
  refine ⟨p.root.toList ++ front, fun name => ?_⟩
  rw [toList_text (by simp [Search.below]), Search.below, List.map_append, List.map_singleton,
    whole, List.append_assoc]

theorem hasNul_iff (nonempty : p.parts ≠ []) : FileTree.hasNul p = true ↔
    '\x00' ∈ p.root.toList ∨ ∃ name ∈ p.parts, '\x00' ∈ name.toList := by
  rw [FileTree.hasNul, decide_eq_true_iff, toList_text nonempty, List.mem_append,
    Text.mem_join_iff (by decide)]
  simp

end FilePath

/-! ### What is found -/

namespace FileTree

/-- No name in the tree holds a slash. -/
def IsWellNamed (t : FileTree) : Prop := ∀ place ∈ t.nodes.keys, ∀ n ∈ place, '/' ∉ n.toList

instance (t : FileTree) : Decidable t.IsWellNamed :=
  inferInstanceAs (Decidable (∀ place ∈ t.nodes.keys, ∀ n ∈ place, '/' ∉ n.toList))

variable {t : FileTree} {p : FilePath} {cause : Fault}

/-- Only at a path that is too long one cannot look. -/
theorem eq_tooLong_of_map_find? {α : Type} {f : Option Node → α}
    (h : (t.find? p).map f = .error cause) : cause = .system .nameTooLong [p.text] := by
  cases found : t.find? p with
  | ok node => rw [found] at h; cases h
  | error cause' =>
    rw [found] at h
    cases h
    rw [find?] at found
    split at found
    · cases found
    · split at found
      · cases found
      · cases found; rfl
      · cases found

theorem isDir?_of_isFile? (h : t.isFile? p = .ok true) : t.isDir? p = .ok false := by
  rw [isFile?] at h
  rw [isDir?]
  cases found : t.find? p with
  | error cause => rw [found] at h; cases h
  | ok node =>
    rw [found] at h
    rcases node with _ | _ | content
    · cases h
    · cases h
    · rfl

theorem hasNul_of_isFile? (h : t.isFile? p = .ok true) : hasNul p = false := by
  rw [isFile?, find?] at h
  split at h
  · cases h
  · next absent => exact Bool.eq_false_iff.2 absent

theorem hasNul_of_exists? (h : t.exists? p = .ok true) : hasNul p = false := by
  rw [exists?, find?] at h
  split at h
  · cases h
  · next absent => exact Bool.eq_false_iff.2 absent

end FileTree

namespace Search

variable {t : FileTree} {p q : FilePath} {found : List FilePath} {name pattern : String}
  {level : Level} {ls : List Level} {cause : FileTree.Fault}

theorem not_mem_of_mem_namesIn (named : t.IsWellNamed) (mem : name ∈ namesIn t p) :
    '/' ∉ name.toList := by
  rw [namesIn] at mem
  split at mem
  · exact absurd mem List.not_mem_nil
  · obtain ⟨place, there, last⟩ := List.mem_filterMap.1 mem
    split at last
    · exact named place there name (List.mem_of_getLast? last)
    · cases last

theorem isBelow_of_mem_directories (named : t.IsWellNamed) (mem : q ∈ directories t p) :
    p.IsBelow q := by
  rw [directories] at mem
  split at mem
  · exact absurd mem List.not_mem_nil
  · next place _ =>
    rcases List.mem_cons.1 mem with rfl | mem
    · exact .refl q
    · obtain ⟨d, inside, rfl⟩ := List.mem_map.1 mem
      obtain ⟨e, there, split⟩ := List.mem_filterMap.1 (List.mem_filter.1 inside).1
      split at split
      · cases split
        refine ⟨rfl, e.1.drop place.length, rfl, fun n last => ?_⟩
        exact named e.1 (List.mem_map_of_mem there) n (List.mem_of_mem_drop last)
      · cases split

/-- A level that is a name holds no slash. -/
def Level.IsPlain : Level → Prop
  | .name s => '/' ∉ s.toList
  | _ => True

theorem isPlain_of_mem_levels (h : levels pattern = .ok ls) (mem : level ∈ ls) :
    level.IsPlain := by
  rw [levels] at h
  split at h
  · cases h
  · obtain ⟨s, member, denoted⟩ := exists_of_mem_mapM_ok h mem
    rw [levelOf] at denoted
    split at denoted
    · cases denoted; trivial
    split at denoted
    · cases denoted
    split at denoted
    · cases denoted; trivial
    · cases denoted; exact (FilePath.not_mem_of_mem_namesOf member).1

/-- What is found lies below the path in which the search begins. -/
theorem isBelow_of_mem_select (named : t.IsWellNamed) (plain : ∀ level ∈ ls, level.IsPlain)
    (h : select t ls p = .ok found) (mem : q ∈ found) : p.IsBelow q := by
  induction ls generalizing p found with
  | nil =>
    cases h
    rw [List.mem_singleton.1 mem]
    exact .refl p
  | cons level rest ih =>
    rw [List.forall_mem_cons] at plain
    -- one level down, and from there on
    have down : ∀ {mid : List FilePath} {parts : List (List FilePath)},
        (∀ m ∈ mid, p.IsBelow m) → mid.mapM (select t rest) = .ok parts → q ∈ parts.flatten →
          p.IsBelow q := by
      intro mid parts below steps mem
      obtain ⟨part, member, inside⟩ := List.mem_flatten.1 mem
      obtain ⟨m, there, step⟩ := exists_of_mem_mapM_ok steps member
      exact (below m there).trans (ih plain.2 step inside)
    cases level with
    | anyDepth =>
      rw [select] at h
      obtain ⟨parts, steps, h⟩ := exists_of_bind_ok h
      cases h
      exact down (fun m there => isBelow_of_mem_directories named there) steps mem
    | name s =>
      rw [select] at h
      obtain ⟨there, -, h⟩ := exists_of_bind_ok h
      split at h
      · exact (FilePath.isBelow_below p plain.1).trans (ih plain.2 h mem)
      · cases h
        exact absurd mem List.not_mem_nil
    | pattern s =>
      rw [select] at h
      obtain ⟨mid, kept, h⟩ := exists_of_bind_ok h
      obtain ⟨parts, steps, h⟩ := exists_of_bind_ok h
      cases h
      refine down (fun m there => ?_) steps mem
      obtain ⟨name, member, rfl⟩ := List.mem_map.1 ((mem_filterM kept).1 there).1
      exact FilePath.isBelow_below p (not_mem_of_mem_namesIn named (List.mem_filter.1 member).1)

/-- A search fails only at a path that is too long. -/
theorem exists_eq_tooLong_of_select (h : select t ls p = .error cause) :
    ∃ q : FilePath, cause = .system .nameTooLong [q.text] := by
  induction ls generalizing p with
  | nil => cases h
  | cons level rest ih =>
    -- a search from one of several paths is what fails
    have down : ∀ {mid : List FilePath}, mid.mapM (select t rest) = .error cause →
        ∃ q : FilePath, cause = .system .nameTooLong [q.text] := by
      intro mid steps
      obtain ⟨m, -, step⟩ := exists_of_mapM_error steps
      exact ih step
    cases level with
    | anyDepth =>
      rw [select] at h
      rcases exists_of_bind_error h with steps | ⟨parts, -, h⟩
      · exact down steps
      · cases h
    | name s =>
      rw [select] at h
      rcases exists_of_bind_error h with looking | ⟨there, -, h⟩
      · split at looking
        · exact ⟨_, FileTree.eq_tooLong_of_map_find? looking⟩
        · exact ⟨_, FileTree.eq_tooLong_of_map_find? looking⟩
      · split at h
        · exact ih h
        · cases h
    | pattern s =>
      rw [select] at h
      rcases exists_of_bind_error h with looking | ⟨mid, -, h⟩
      · obtain ⟨m, -, looking⟩ := exists_of_filterM_error looking
        split at looking
        · cases looking
        · exact ⟨_, FileTree.eq_tooLong_of_map_find? looking⟩
      · rcases exists_of_bind_error h with steps | ⟨parts, -, h⟩
        · exact down steps
        · cases h

end Search

end PackPlan
