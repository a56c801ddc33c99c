import Mathlib.Data.List.Induction
import PackPlan.Proofs.Files.Search

/-!
# Places in a file tree

In a proper tree everything stands in a directory, so nothing stands below a file. What is found
under a name in a directory is what stands at the place of that name, unless the name or the path
is too long.

## Main definitions

* `FileTree.IsProper` — everything in the tree stands in a directory
* `FileTree.KeepsDirs` — directories that are still there
* `FileTree.IsAt` — a path leads to a directory
* `FilePath.IsName`, `FilePath.isShort` — a name that can stand in a directory, and whether the
  path to it is not too long

## Main results

* `FileTree.IsProper.node?_below` — nothing stands below what is not a directory
* `FileTree.KeepsDirs.locate` — a path leads where it led, as long as the directories are there
* `FileTree.locate_below`, `FileTree.find?_below` — what a name in a directory leads to
* `FileTree.readBytes_eq_ok`, `FileTree.isFile?_eq_true` — what is read and what is found there
-/

namespace PackPlan

/-! ### Texts of paths -/

namespace Text

variable {sep : Char} {s s' piece : List Char} {pieces : List (List Char)}

theorem splitAt_append_sep (sep : Char) (s s' : List Char) :
    splitAt sep (s ++ sep :: s') = splitAt sep s ++ splitAt sep s' := by
  induction s with
  | nil => rw [List.nil_append, splitAt_cons, if_pos rfl]; rfl
  | cons c s ih =>
    obtain ⟨piece, pieces, split⟩ := List.exists_cons_of_ne_nil (splitAt_ne_nil sep s)
    rw [List.cons_append, splitAt_cons, splitAt_cons, ih, split]
    split <;> rfl

theorem join_concat (sep : List Char) (nonempty : pieces ≠ []) (piece : List Char) :
    join sep (pieces ++ [piece]) = join sep pieces ++ (sep ++ piece) := by
  induction pieces with
  | nil => exact absurd rfl nonempty
  | cons first pieces ih =>
    cases pieces with
    | nil => simp [join]
    | cons next pieces =>
      have later := ih (List.cons_ne_nil next pieces)
      simp only [join, List.cons_append] at later
      simp only [join, List.cons_append, List.intercalate_cons_cons]
      rw [later]
      simp only [List.append_assoc]

end Text

namespace FilePath

variable {p : FilePath} {name : String}

/-- A text that can be the name of a file or directory. -/
structure IsName (name : String) : Prop where
  plain : '/' ∉ name.toList
  ne_empty : name ≠ ""
  ne_dot : name ≠ "."
  ne_up : name ≠ ".."

instance (name : String) : Decidable (IsName name) :=
  decidable_of_iff ('/' ∉ name.toList ∧ name ≠ "" ∧ name ≠ "." ∧ name ≠ "..")
    ⟨fun h => ⟨h.1, h.2.1, h.2.2.1, h.2.2.2⟩, fun h => ⟨h.1, h.2, h.3, h.4⟩⟩

/-- Whether neither a name in a directory nor the path to it is too long. -/
def isShort (p : FilePath) (name : String) : Bool :=
  (Search.below p name).text.utf8ByteSize ≤ FileTree.maxPath &&
    name.utf8ByteSize ≤ FileTree.maxName

theorem namesOf_append_slash (s s' : List Char) :
    namesOf (s ++ '/' :: s') = namesOf s ++ namesOf s' := by
  rw [namesOf, Text.splitAt_append_sep, List.filter_append, List.map_append]
  rfl

theorem namesOf_of_isName (isName : IsName name) : namesOf name.toList = [name] :=
  congrArg FilePath.parts (ofString_of_plain isName.plain isName.ne_empty isName.ne_dot)

theorem text_below (nonempty : p.parts ≠ []) (name : String) :
    (Search.below p name).text = p.text ++ ("/" ++ name) := by
  apply String.toList_injective
  rw [toList_text (by simp [Search.below]), String.toList_append, toList_text nonempty,
    Search.below, List.map_append, List.map_singleton,
    Text.join_concat _ (by simpa using nonempty), ← List.append_assoc, String.toList_append]
  rfl

theorem text_of_parts_eq_nil (rootless : p.root = "") (empty : p.parts = []) : p.text = "." := by
  rw [text, if_pos ⟨rootless, empty⟩]

theorem text_below_of_parts_eq_nil (rootless : p.root = "") (empty : p.parts = [])
    (name : String) : (Search.below p name).text = name := by
  apply String.toList_injective
  rw [toList_text (by simp [Search.below]), Search.below, rootless, empty, List.nil_append,
    List.map_singleton, Text.join, List.intercalate_singleton]
  rfl

/-- The names in the text of a path below another are those of the other, and one more. -/
theorem namesOf_text_below (rootless : p.root = "") (isName : IsName name) :
    namesOf (Search.below p name).text.toList = namesOf p.text.toList ++ [name] := by
  by_cases empty : p.parts = []
  · -- the text of the directory itself is a dot, which is no name
    rw [text_below_of_parts_eq_nil rootless empty, text_of_parts_eq_nil rootless empty,
      namesOf_of_isName isName]
    rfl
  · rw [text_below empty, String.toList_append, String.toList_append, ← namesOf_of_isName isName]
    exact namesOf_append_slash _ _

/-- The text of a path below another is not shorter. -/
theorem utf8ByteSize_text_le (rootless : p.root = "") (nonempty : name ≠ "") :
    p.text.utf8ByteSize ≤ (Search.below p name).text.utf8ByteSize := by
  by_cases empty : p.parts = []
  · rw [text_below_of_parts_eq_nil rootless empty, text_of_parts_eq_nil rootless empty]
    exact Nat.pos_of_ne_zero fun none => nonempty (String.utf8ByteSize_eq_zero_iff.1 none)
  · rw [text_below empty, String.utf8ByteSize_append]
    exact Nat.le_add_right _ _

theorem hasNul_below (p : FilePath) (name : String) :
    FileTree.hasNul (Search.below p name) =
      (FileTree.hasNul p || decide ('\x00' ∈ name.toList)) := by
  rw [Bool.eq_iff_iff, hasNul_iff (by simp [Search.below]), Bool.or_eq_true, decide_eq_true_eq]
  simp only [Search.below, List.mem_append, List.mem_singleton, or_and_right, exists_or,
    exists_eq_left, ← or_assoc]
  refine or_congr_left ?_
  by_cases empty : p.parts = []
  · -- a path without names has its root for a text, or a dot
    rw [empty, FileTree.hasNul, decide_eq_true_eq, FilePath.text, empty]
    by_cases rootless : p.root = ""
    · simp [rootless]
    · simp [rootless]
  · rw [← hasNul_iff empty]

end FilePath

namespace FileTree

variable {t t' t'' : FileTree} {place other start : Location} {p d : FilePath}
  {paths : List FilePath} {name : String} {names : List String} {content : Bytes}

/-! ### Proper trees -/

/-- Everything in the tree stands in a directory, under a name without a slash. -/
structure IsProper (t : FileTree) : Prop where
  named : t.IsWellNamed
  parent : ∀ place ∈ t.nodes.keys, t.node? place.dropLast = some .dir

instance (t : FileTree) : Decidable t.IsProper :=
  decidable_of_iff (t.IsWellNamed ∧ ∀ place ∈ t.nodes.keys, t.node? place.dropLast = some .dir)
    ⟨fun h => ⟨h.1, h.2⟩, fun h => ⟨h.1, h.2⟩⟩

@[simp] theorem node?_nil (t : FileTree) : t.node? [] = some .dir := rfl

theorem node?_of_ne_nil (t : FileTree) (inside : place ≠ []) :
    t.node? place = t.nodes.get? place := if_neg inside

theorem mem_keys_iff (inside : place ≠ []) : place ∈ t.nodes.keys ↔ t.node? place ≠ none := by
  rw [node?_of_ne_nil t inside, ne_eq, Table.get?_eq_none, Decidable.not_not]

/-- What stands under a name stands in a directory. -/
theorem IsProper.dir_of_node?_concat (proper : t.IsProper)
    (there : t.node? (place ++ [name]) ≠ none) : t.node? place = some .dir := by
  have parent := proper.parent _ ((mem_keys_iff (by simp)).2 there)
  rwa [List.dropLast_concat] at parent

/-- Nothing stands below what is not a directory. -/
theorem IsProper.node?_below (proper : t.IsProper) (leaf : t.node? place ≠ some .dir)
    (further : names ≠ []) : t.node? (place ++ names) = none := by
  induction names using List.reverseRecOn with
  | nil => exact absurd rfl further
  | append_singleton names name ih =>
    by_contra there
    rw [← List.append_assoc] at there
    have dir := proper.dir_of_node?_concat there
    -- the directory in which it stands would stand below the same place, or be it
    by_cases last : names = []
    · rw [last, List.append_nil] at dir
      exact leaf dir
    · rw [ih last] at dir
      cases dir

theorem mem_names_iff : name ∈ t.names place ↔ t.node? (place ++ [name]) ≠ none := by
  rw [← mem_keys_iff (by simp), names, List.mem_filterMap]
  constructor
  · rintro ⟨key, there, last⟩
    split at last
    · next parent =>
      obtain ⟨before, rfl⟩ := List.getLast?_eq_some_iff.1 last
      rw [List.dropLast_concat] at parent
      rwa [← parent]
    · cases last
  · intro there
    refine ⟨place ++ [name], there, ?_⟩
    rw [if_pos List.dropLast_concat, List.getLast?_concat]

/-! ### Where paths lead -/

/-- The directories of a tree are directories of another. -/
def KeepsDirs (t t' : FileTree) : Prop :=
  ∀ place, t.node? place = some .dir → t'.node? place = some .dir

theorem KeepsDirs.refl (t : FileTree) : t.KeepsDirs t := fun _ dir => dir

theorem KeepsDirs.trans (first : t.KeepsDirs t') (second : t'.KeepsDirs t'') : t.KeepsDirs t'' :=
  fun place dir => second place (first place dir)

theorem follow_cons_ok (h : t.follow start (name :: names) = .ok place) :
    t.node? start = some .dir ∧
      (name = ".." ∧ t.follow start.dropLast names = .ok place ∨
        name ≠ ".." ∧ name.utf8ByteSize ≤ maxName ∧
          t.follow (start ++ [name]) names = .ok place) := by
  rw [follow] at h
  split at h
  · cases h
  · cases h
  · next dir =>
    refine ⟨dir, ?_⟩
    split at h
    · next up => exact .inl ⟨up, h⟩
    · next down =>
      split at h
      · cases h
      · next short => exact .inr ⟨down, Nat.not_lt.1 short, h⟩

theorem follow_up (dir : t.node? start = some .dir) :
    t.follow start (".." :: names) = t.follow start.dropLast names := by
  rw [follow, dir]
  rfl

theorem follow_down (dir : t.node? start = some .dir) (down : name ≠ "..") :
    t.follow start (name :: names) = if name.utf8ByteSize ≤ maxName
      then t.follow (start ++ [name]) names else .error .nameTooLong := by
  rw [follow, dir]
  dsimp only
  rw [if_neg down]
  by_cases short : name.utf8ByteSize ≤ maxName
  · rw [if_pos short, if_neg (Nat.not_lt.2 short)]
  · rw [if_neg short, if_pos (Nat.not_le.1 short)]

/-- A path leads where it led, as long as the directories are there. -/
theorem KeepsDirs.follow (kept : t.KeepsDirs t') (h : t.follow start names = .ok place) :
    t'.follow start names = .ok place := by
  induction names generalizing start with
  | nil => exact h
  | cons name names ih =>
    obtain ⟨dir, ⟨rfl, up⟩ | ⟨down, short, further⟩⟩ := follow_cons_ok h
    · rw [follow_up (kept start dir), ih up]
    · rw [follow_down (kept start dir) down, if_pos short, ih further]

/-- The last of several names is followed after the others. -/
theorem follow_concat (t : FileTree) (start : Location) (names : List String) (name : String) :
    t.follow start (names ++ [name]) =
      t.follow start names >>= fun place => t.follow place [name] := by
  induction names generalizing start with
  | nil => rfl
  | cons first names ih =>
    rw [List.cons_append, follow, follow]
    split
    · rfl
    · rfl
    · split
      · exact ih _
      · split
        · rfl
        · exact ih _

theorem locate_eq_ok : t.locate p paths = .ok place ↔ hasNul p = false ∧ p.root = "" ∧
    p.text.utf8ByteSize ≤ maxPath ∧ t.follow [] (FilePath.namesOf p.text.toList) = .ok place := by
  rw [locate, reach]
  cases hasNul p with
  | true => exact iff_of_false nofun nofun
  | false =>
    rw [if_neg Bool.false_ne_true]
    by_cases rootless : p.root = ""
    · rw [if_neg (not_not_intro rootless)]
      by_cases short : p.text.utf8ByteSize ≤ maxPath
      · rw [if_neg (Nat.not_lt.2 short)]
        simp only [rootless, short, true_and]
        cases t.follow [] (FilePath.namesOf p.text.toList) with
        | error reason => exact iff_of_false nofun nofun
        | ok place' => simp [Except.mapError]
      · rw [if_pos (Nat.not_le.1 short)]
        exact iff_of_false nofun fun h => short h.2.2.1
    · rw [if_pos rootless]
      exact iff_of_false nofun fun h => rootless h.2.1

theorem KeepsDirs.locate (kept : t.KeepsDirs t') (h : t.locate p paths = .ok place) :
    t'.locate p paths = .ok place := by
  rw [locate_eq_ok] at h ⊢
  exact ⟨h.1, h.2.1, h.2.2.1, kept.follow h.2.2.2⟩

theorem locate_congr {paths' : List FilePath} (h : t.locate p paths = .ok place) :
    t.locate p paths' = .ok place := locate_eq_ok.2 (locate_eq_ok.1 h)

/-- What a path finds stands where it leads. -/
theorem find?_of_locate (h : t.locate p paths = .ok place) : t.find? p = .ok (t.node? place) := by
  obtain ⟨nul, rootless, short, led⟩ := locate_eq_ok.1 h
  rw [find?, nul, reach, if_neg (not_not_intro rootless), if_neg (Nat.not_lt.2 short), led]
  rfl

theorem exists_locate_of_find? {node : Node} (h : t.find? p = .ok (some node)) :
    ∃ place, t.locate p = .ok place ∧ t.node? place = some node := by
  rw [find?] at h
  split at h
  · cases h
  · next nul =>
    split at h
    · next place led =>
      refine ⟨place, ?_, Except.ok.inj h⟩
      rw [locate, if_neg nul, led]
      rfl
    · cases h
    · cases h

theorem readBytes_eq_ok : t.readBytes p = .ok content ↔
    ∃ place, t.locate p = .ok place ∧ t.node? place = some (.file content) := by
  constructor
  · intro h
    obtain ⟨place, led, h⟩ := exists_of_bind_ok h
    refine ⟨place, led, ?_⟩
    split at h
    · next content' there =>
      cases h
      exact there
    · cases h
    · cases h
  · rintro ⟨place, led, there⟩
    rw [readBytes, led]
    dsimp only [bind, Except.bind]
    rw [there]
    rfl

theorem isFile?_eq_true : t.isFile? p = .ok true ↔ ∃ content, t.readBytes p = .ok content := by
  rw [isFile?]
  constructor
  · intro h
    cases found : t.find? p with
    | error cause => rw [found] at h; cases h
    | ok node =>
      rw [found] at h
      rcases node with _ | _ | content
      · cases h
      · cases h
      · obtain ⟨place, led, there⟩ := exists_locate_of_find? found
        exact ⟨content, readBytes_eq_ok.2 ⟨place, led, there⟩⟩
  · rintro ⟨content, read⟩
    obtain ⟨place, led, there⟩ := readBytes_eq_ok.1 read
    rw [find?_of_locate led, there]
    rfl

/-- A file that can be read is there. -/
theorem exists?_of_readBytes {content : Bytes} (read : t.readBytes p = .ok content) :
    t.exists? p = .ok true := by
  obtain ⟨place, led, there⟩ := readBytes_eq_ok.1 read
  rw [exists?, find?_of_locate led, there]
  rfl

/-! ### Names in a directory -/

/-- A path leads to a directory. -/
structure IsAt (t : FileTree) (d : FilePath) (place : Location) : Prop where
  led : t.locate d = .ok place
  dir : t.node? place = some .dir

theorem isDir?_eq_true : t.isDir? d = .ok true ↔ ∃ place, t.IsAt d place := by
  rw [isDir?]
  constructor
  · intro h
    cases found : t.find? d with
    | error cause => rw [found] at h; cases h
    | ok node =>
      rw [found] at h
      obtain rfl := of_decide_eq_true (Except.ok.inj h)
      obtain ⟨place, led, dir⟩ := exists_locate_of_find? found
      exact ⟨place, led, dir⟩
  · rintro ⟨place, led, dir⟩
    rw [find?_of_locate led, dir]
    rfl

theorem IsAt.unique (first : t.IsAt d place) (second : t.IsAt d other) : place = other :=
  Except.ok.inj (first.led.symm.trans second.led)

theorem KeepsDirs.isAt (kept : t.KeepsDirs t') (h : t.IsAt d place) : t'.IsAt d place :=
  ⟨kept.locate h.led, kept place h.dir⟩

theorem IsAt.namesIn (h : t.IsAt d place) : Search.namesIn t d = t.names place := by
  obtain ⟨-, rootless, short, led⟩ := locate_eq_ok.1 h.led
  rw [Search.namesIn, reach, if_neg (not_not_intro rootless), if_neg (Nat.not_lt.2 short), led]

/-- Where a name in a directory leads. -/
theorem IsAt.reach_below (h : t.IsAt d place) (isName : FilePath.IsName name) :
    t.reach (Search.below d name) =
      if d.isShort name then .ok (place ++ [name]) else .error .nameTooLong := by
  obtain ⟨-, rootless, -, led⟩ := locate_eq_ok.1 h.led
  have root : (Search.below d name).root = "" := rootless
  rw [reach, if_neg (not_not_intro root), FilePath.namesOf_text_below rootless isName,
    follow_concat, led, FilePath.isShort]
  by_cases short : (Search.below d name).text.utf8ByteSize ≤ maxPath
  · rw [if_neg (Nat.not_lt.2 short), decide_eq_true short, Bool.true_and]
    change t.follow place [name] = _
    rw [follow_down h.dir isName.ne_up]
    simp only [decide_eq_true_eq]
    rfl
  · rw [if_pos (Nat.not_le.1 short), decide_eq_false short, Bool.false_and]
    rfl

theorem IsAt.hasNul_below (h : t.IsAt d place) (name : String) :
    hasNul (Search.below d name) = decide ('\x00' ∈ name.toList) := by
  rw [FilePath.hasNul_below, (locate_eq_ok.1 h.led).1, Bool.false_or]

/-- Where a name in a directory leads, for an operation on some paths. -/
theorem IsAt.locate_below (h : t.IsAt d place) (isName : FilePath.IsName name)
    (nul : '\x00' ∉ name.toList) (paths : List FilePath) :
    t.locate (Search.below d name) paths = if d.isShort name then .ok (place ++ [name])
      else .error (.system .nameTooLong (paths.map (·.text))) := by
  rw [locate, h.hasNul_below, decide_eq_false nul, if_neg Bool.false_ne_true,
    h.reach_below isName]
  split <;> rfl

/-- What is found under a name in a directory. -/
theorem IsAt.find?_below (h : t.IsAt d place) (isName : FilePath.IsName name)
    (nul : '\x00' ∉ name.toList) : t.find? (Search.below d name) =
      if d.isShort name then .ok (t.node? (place ++ [name]))
      else .error (.system .nameTooLong [(Search.below d name).text]) := by
  rw [find?, h.hasNul_below, decide_eq_false nul, if_neg Bool.false_ne_true, h.reach_below isName]
  cases d.isShort name <;> rfl

/-- Where something is found under a name, the path before the name leads to a directory. -/
theorem exists_isAt_of_locate_below (isName : FilePath.IsName name)
    (h : t.locate (Search.below d name) paths = .ok place) :
    ∃ base, t.IsAt d base ∧ place = base ++ [name] ∧ d.isShort name = true ∧
      '\x00' ∉ name.toList := by
  obtain ⟨nul, rootless, short, led⟩ := locate_eq_ok.1 h
  rw [FilePath.hasNul_below, Bool.or_eq_false_iff, decide_eq_false_iff_not] at nul
  have root : d.root = "" := rootless
  rw [FilePath.namesOf_text_below root isName, follow_concat] at led
  obtain ⟨base, first, last⟩ := exists_of_bind_ok led
  obtain ⟨dir, ⟨up, -⟩ | ⟨-, shortName, here⟩⟩ := follow_cons_ok last
  · exact absurd up isName.ne_up
  · refine ⟨base, ⟨?_, dir⟩, (Except.ok.inj here).symm, ?_, nul.2⟩
    · exact locate_eq_ok.2 ⟨nul.1, root,
        (FilePath.utf8ByteSize_text_le root isName.ne_empty).trans short, first⟩
    · rw [FilePath.isShort, Bool.and_eq_true, decide_eq_true_eq, decide_eq_true_eq]
      exact ⟨short, shortName⟩

end FileTree

end PackPlan
