import Mathlib.Data.List.Nodup
import PackPlan.Proofs.Files.Places

/-!
# Changes of a file tree

What a change of a proper tree does to what stands at each place. A proper tree stays proper, and
the directories stay where they are, when a file is written or moved and when a directory is made.

## Main definitions

* `FileTree.put` — a tree with something at a place
* `FileTree.IsFilePlace` — a place in a directory that is no directory
* `FileTree.SameDirs` — trees with the same directories

## Main results

* `FileTree.node?_put`, `FileTree.node?_relocate` — what stands where after a change
* `FileTree.IsProper.put`, `FileTree.IsProper.relocate` — proper trees stay proper
* `FileTree.IsProper.makeDirs`, `FileTree.IsProper.writeBytes` — and so they do after these
* `FileTree.readBytes_of_writeBytes`, `FileTree.readBytes_of_move` — what has been written or
  moved can be read
-/

namespace PackPlan

namespace Table

variable {κ α : Type} [DecidableEq κ]

theorem get?_filter (t : Table κ α) (keep : κ → α → Bool) (k : κ) :
    (t.filter keep).get? k = (t.get? k).filter (keep k) := by
  ext v
  rw [get?_eq_some, Option.filter_eq_some_iff, get?_eq_some]
  exact List.mem_filter

end Table

namespace FileTree

variable {t t' t'' : FileTree} {place other source target start : Location}
  {p source' target' : FilePath} {paths : List FilePath} {names : List String}
  {name old new : String} {node : Node} {content : Bytes}

/-! ### Something at a place -/

/-- The tree with something at a place. -/
def put (t : FileTree) (place : Location) (node : Node) : FileTree :=
  { nodes := t.nodes.insert place node }

theorem node?_put (inside : place ≠ []) (node : Node) (other : Location) :
    (t.put place node).node? other = if other = place then some node else t.node? other := by
  by_cases top : other = []
  · rw [top, if_neg (Ne.symm inside), node?_nil, node?_nil]
  · rw [node?_of_ne_nil _ top, node?_of_ne_nil _ top, put, Table.get?_insert]

theorem IsProper.plain (proper : t.IsProper) (there : t.node? place ≠ none) :
    ∀ n ∈ place, '/' ∉ n.toList := by
  by_cases top : place = []
  · rw [top]
    exact fun n mem => absurd mem List.not_mem_nil
  · exact proper.named place ((mem_keys_iff top).2 there)

theorem IsProper.node?_dropLast (proper : t.IsProper) (there : t.node? place ≠ none) :
    t.node? place.dropLast = some .dir := by
  by_cases top : place = []
  · rw [top, List.dropLast_nil, node?_nil]
  · exact proper.parent place ((mem_keys_iff top).2 there)

/-- A tree is proper if all that stands somewhere stands in a directory. -/
theorem IsProper.of_node? (h : ∀ place, place ≠ [] → t.node? place ≠ none →
    (∀ n ∈ place, '/' ∉ n.toList) ∧ t.node? place.dropLast = some .dir) : t.IsProper := by
  constructor
  · intro place key n mem
    have inside : place ≠ [] := List.ne_nil_of_mem mem
    exact (h place inside ((mem_keys_iff inside).1 key)).1 n mem
  · intro place key
    by_cases top : place = []
    · rw [top, List.dropLast_nil, node?_nil]
    · exact (h place top ((mem_keys_iff top).1 key)).2

/-- A place in a directory, under a name without a slash, where no directory stands. -/
structure IsFilePlace (t : FileTree) (place : Location) : Prop where
  plain : ∀ n ∈ place, '/' ∉ n.toList
  parent : t.node? place.dropLast = some .dir
  leaf : t.node? place ≠ some .dir

theorem IsFilePlace.ne_nil (h : t.IsFilePlace place) : place ≠ [] := by
  rintro rfl
  exact h.leaf (node?_nil t)

theorem KeepsDirs.put (h : t.IsFilePlace place) (node : Node) :
    t.KeepsDirs (t.put place node) := by
  intro other dir
  rw [node?_put h.ne_nil]
  split
  · next same => exact absurd (same ▸ dir) h.leaf
  · exact dir

theorem IsProper.put (proper : t.IsProper) (h : t.IsFilePlace place) (node : Node) :
    (t.put place node).IsProper := by
  refine .of_node? fun other _ there => ?_
  rw [node?_put h.ne_nil] at there
  split at there
  · next same =>
    rw [same]
    exact ⟨h.plain, KeepsDirs.put h node _ h.parent⟩
  · exact ⟨proper.plain there, KeepsDirs.put h node _ (proper.node?_dropLast there)⟩

/-! ### Where paths lead in a proper tree -/

theorem IsProper.place_of_follow (proper : t.IsProper) (plain : ∀ n ∈ names, '/' ∉ n.toList)
    (before : ∀ n ∈ start, '/' ∉ n.toList) (parent : t.node? start.dropLast = some .dir)
    (h : t.follow start names = .ok place) :
    (∀ n ∈ place, '/' ∉ n.toList) ∧ t.node? place.dropLast = some .dir := by
  induction names generalizing start with
  | nil =>
    cases h
    exact ⟨before, parent⟩
  | cons name names ih =>
    rw [List.forall_mem_cons] at plain
    obtain ⟨dir, ⟨-, up⟩ | ⟨-, -, down⟩⟩ := follow_cons_ok h
    · refine ih plain.2 (fun n mem => before n (List.dropLast_subset _ mem)) ?_ up
      exact proper.node?_dropLast (by rw [parent]; exact nofun)
    · refine ih plain.2 ?_ (by rwa [List.dropLast_concat]) down
      rw [List.forall_mem_append]
      exact ⟨before, by simpa using plain.1⟩

/-- In a proper tree every path that leads somewhere leads into a directory. -/
theorem IsProper.place_of_locate (proper : t.IsProper) (h : t.locate p paths = .ok place) :
    (∀ n ∈ place, '/' ∉ n.toList) ∧ t.node? place.dropLast = some .dir := by
  obtain ⟨-, -, -, led⟩ := locate_eq_ok.1 h
  exact proper.place_of_follow (fun n mem => (FilePath.not_mem_of_mem_namesOf mem).1)
    (fun n mem => absurd mem List.not_mem_nil) (node?_nil t) led

theorem IsProper.isFilePlace (proper : t.IsProper) (h : t.locate p paths = .ok place)
    (leaf : t.node? place ≠ some .dir) : t.IsFilePlace place :=
  ⟨(proper.place_of_locate h).1, (proper.place_of_locate h).2, leaf⟩

/-! ### Making directories and writing files -/

theorem exists_of_makeDir (h : t.makeDir p = .ok t') :
    ∃ place, t.locate p = .ok place ∧ t.node? place = none ∧ t' = t.put place .dir := by
  obtain ⟨place, led, h⟩ := exists_of_bind_ok h
  split at h
  · cases h
  · next vacant => exact ⟨place, led, vacant, (Except.ok.inj h).symm⟩

theorem IsProper.makeDir (proper : t.IsProper) (h : t.makeDir p = .ok t') : t'.IsProper := by
  obtain ⟨place, led, vacant, rfl⟩ := exists_of_makeDir h
  exact proper.put (proper.isFilePlace led (by rw [vacant]; exact nofun)) .dir

theorem makeDir_or_eq_of_makeDirOnce (h : t.makeDirOnce p = .ok t') :
    t.makeDir p = .ok t' ∨ t' = t := by
  rw [makeDirOnce] at h
  split at h
  · next made =>
    cases h
    exact .inl made
  · obtain ⟨there, -, h⟩ := exists_of_bind_ok h
    split at h
    · cases h
      exact .inr rfl
    · cases h
  · cases h

/-- What is kept when one directory is made is kept when all of a path are. -/
theorem kept_of_makeDirs {I : FileTree → Prop}
    (step : ∀ {t p t'}, I t → t.makeDir p = .ok t' → I t') (start : I t)
    (h : t.makeDirs p = .ok t') : I t' := by
  have once : ∀ {t p t'}, I t → t.makeDirOnce p = .ok t' → I t' := by
    intro t p t' held made
    rcases makeDir_or_eq_of_makeDirOnce made with made | rfl
    · exact step held made
    · exact held
  induction p using makeDirs.induct t generalizing t' with
  | case1 p paths missing top =>
    rw [makeDirs, missing] at h
    dsimp only at h
    rw [dif_pos top] at h
    cases h
  | case2 p paths missing further ih =>
    rw [makeDirs, missing] at h
    dsimp only at h
    rw [dif_neg further] at h
    obtain ⟨above, made, h⟩ := exists_of_bind_ok h
    exact once (ih made) h
  | case3 p other =>
    rw [makeDirs] at h
    split at h
    · next missing => exact absurd missing (other _)
    · exact once start h

theorem IsProper.makeDirs (proper : t.IsProper) (h : t.makeDirs p = .ok t') : t'.IsProper :=
  kept_of_makeDirs IsProper.makeDir proper h

theorem exists_of_writeBytes (h : t.writeBytes p content = .ok t') :
    ∃ place, t.locate p = .ok place ∧ t.node? place ≠ some .dir ∧
      t' = t.put place (.file content) := by
  obtain ⟨place, led, h⟩ := exists_of_bind_ok h
  split at h
  · cases h
  · next leaf => exact ⟨place, led, leaf, (Except.ok.inj h).symm⟩

theorem IsProper.writeBytes (proper : t.IsProper) (h : t.writeBytes p content = .ok t') :
    t'.IsProper := by
  obtain ⟨place, led, leaf, rfl⟩ := exists_of_writeBytes h
  exact proper.put (proper.isFilePlace led leaf) _

/-- What has been written can be read. -/
theorem readBytes_of_writeBytes (proper : t.IsProper) (h : t.writeBytes p content = .ok t') :
    t'.readBytes p = .ok content := by
  obtain ⟨place, led, leaf, rfl⟩ := exists_of_writeBytes h
  have free := proper.isFilePlace led leaf
  refine readBytes_eq_ok.2 ⟨place, (KeepsDirs.put free _).locate led, ?_⟩
  rw [node?_put free.ne_nil, if_pos rfl]

/-! ### Moving files -/

/-- Two trees have the same directories. -/
def SameDirs (t t' : FileTree) : Prop :=
  ∀ place, t.node? place = some .dir ↔ t'.node? place = some .dir

theorem SameDirs.refl (t : FileTree) : t.SameDirs t := fun _ => Iff.rfl

theorem SameDirs.symm (h : t.SameDirs t') : t'.SameDirs t := fun place => (h place).symm

theorem SameDirs.trans (first : t.SameDirs t') (second : t'.SameDirs t'') : t.SameDirs t'' :=
  fun place => (first place).trans (second place)

theorem SameDirs.keepsDirs (h : t.SameDirs t') : t.KeepsDirs t' := fun place => (h place).1

/-- At and below a file there is only the file. -/
theorem entries_filter_isPrefixOf (proper : t.IsProper)
    (there : t.node? source = some (.file content)) :
    (t.nodes.filter fun k _ => source.isPrefixOf k).entries = [(source, .file content)] := by
  have leaf : t.node? source ≠ some .dir := by rw [there]; exact nofun
  have inside : source ≠ [] := by rintro rfl; exact leaf (node?_nil t)
  rw [node?_of_ne_nil t inside] at there
  have only : ∀ e ∈ (t.nodes.filter fun k _ => source.isPrefixOf k).entries,
      e = (source, .file content) := by
    rintro ⟨key, node⟩ mem
    obtain ⟨entry, starts⟩ := List.mem_filter.1 mem
    obtain ⟨names, rfl⟩ := List.isPrefixOf_iff_prefix.1 starts
    have entry := Table.get?_eq_some.2 entry
    by_cases last : names = []
    · rw [last, List.append_nil] at entry ⊢
      rw [there] at entry
      cases entry
      rfl
    · have nothing := proper.node?_below leaf last
      rw [node?_of_ne_nil t (by simp [inside]), entry] at nothing
      cases nothing
  have member : (source, Node.file content) ∈
      (t.nodes.filter fun k _ => source.isPrefixOf k).entries :=
    List.mem_filter.2 ⟨Table.get?_eq_some.1 there,
      List.isPrefixOf_iff_prefix.2 (List.prefix_refl source)⟩
  -- no key occurs twice, so the file is listed once
  have once := List.Nodup.of_map _ (t.nodes.filter fun k _ => source.isPrefixOf k).nodup
  rw [List.eq_replicate_of_mem only, List.nodup_replicate] at once
  rw [List.eq_replicate_of_mem only,
    Nat.le_antisymm once (List.length_pos_iff.2 (List.ne_nil_of_mem member)), List.replicate_one]

theorem get?_filter_isPrefixOf (proper : t.IsProper)
    (there : t.node? source = some (.file content)) (top : other ≠ []) :
    (t.nodes.filter fun k _ => !source.isPrefixOf k).get? other =
      if other = source then none else t.node? other := by
  rw [Table.get?_filter]
  by_cases starts : source.isPrefixOf other = true
  · rw [Option.filter_eq_none_iff.2 (fun _ _ => by simp [starts])]
    split
    · rfl
    · next apart =>
      obtain ⟨names, rfl⟩ := List.isPrefixOf_iff_prefix.1 starts
      have further : names ≠ [] := by rintro rfl; exact apart (List.append_nil source)
      rw [proper.node?_below (by rw [there]; exact nofun) further]
  · have apart : other ≠ source := by
      rintro rfl
      exact starts (List.isPrefixOf_iff_prefix.2 (List.prefix_refl other))
    rw [if_neg apart, node?_of_ne_nil t top]
    cases t.nodes.get? other with
    | none => rfl
    | some node => rw [Option.filter_some_pos (by simp [starts])]

/-- What stands where after a file has been moved. -/
theorem node?_relocate (proper : t.IsProper) (there : t.node? source = some (.file content))
    (inside : target ≠ []) (other : Location) : (t.relocate source target).node? other =
      if other = target then some (.file content)
      else if other = source then none else t.node? other := by
  rw [relocate, entries_filter_isPrefixOf proper there, List.foldl_cons, List.foldl_nil,
    List.drop_length, List.append_nil]
  change (put { nodes := t.nodes.filter fun k _ => !source.isPrefixOf k } target _).node? other = _
  rw [node?_put inside]
  by_cases top : other = []
  · have apart : other ≠ source := by
      rintro rfl
      rw [top, node?_nil] at there
      cases there
    rw [if_neg apart, top, node?_nil, node?_nil]
  · rw [← get?_filter_isPrefixOf proper there top, node?_of_ne_nil _ top]

theorem SameDirs.relocate (proper : t.IsProper) (there : t.node? source = some (.file content))
    (leaf : t.node? target ≠ some .dir) : t.SameDirs (t.relocate source target) := by
  have inside : target ≠ [] := by rintro rfl; exact leaf (node?_nil t)
  intro other
  rw [node?_relocate proper there inside]
  split
  · next same => exact iff_of_false (same ▸ leaf) nofun
  · split
    · next same => exact iff_of_false (by rw [same, there]; exact nofun) nofun
    · exact Iff.rfl

theorem IsProper.relocate (proper : t.IsProper) (there : t.node? source = some (.file content))
    (free : t.IsFilePlace target) : (t.relocate source target).IsProper := by
  have dirs := (SameDirs.relocate proper there free.leaf).keepsDirs
  refine .of_node? fun other _ present => ?_
  rw [node?_relocate proper there free.ne_nil] at present
  split at present
  · next same =>
    rw [same]
    exact ⟨free.plain, dirs _ free.parent⟩
  · split at present
    · exact absurd rfl present
    · exact ⟨proper.plain present, dirs _ (proper.node?_dropLast present)⟩

/-- What keeps a file from a place. -/
theorem leaf_of_moveObstacle? (there : t.node? source = some (.file content))
    (free : t.moveObstacle? source target = none) :
    source = target ∨ source ≠ target ∧ t.node? target ≠ some .dir := by
  rw [moveObstacle?, there] at free
  dsimp only at free
  by_cases same : source = target
  · exact .inl same
  · refine .inr ⟨same, fun dir => ?_⟩
    rw [if_neg same, dir] at free
    split at free
    · cases free
    · split at free <;> cases free

/-- What has been moved can be read where it is now. -/
theorem readBytes_of_move (proper : t.IsProper) (read : t.readBytes source' = .ok content)
    (h : t.move source' target' = .ok t') : t'.readBytes target' = .ok content := by
  obtain ⟨place, led, there⟩ := readBytes_eq_ok.1 read
  obtain ⟨old, first, h⟩ := exists_of_bind_ok h
  obtain ⟨new, second, h⟩ := exists_of_bind_ok h
  obtain rfl := Except.ok.inj ((locate_congr led).symm.trans first)
  have target_led : t.locate target' = .ok new := locate_congr second
  dsimp only at h
  split at h
  · cases h
  · next free =>
    split at free
    · rcases leaf_of_moveObstacle? there free with same | ⟨apart, leaf⟩
      · rw [if_pos same] at h
        cases h
        exact readBytes_eq_ok.2 ⟨new, target_led, same ▸ there⟩
      · rw [if_neg apart] at h
        cases h
        refine readBytes_eq_ok.2 ⟨new,
          (SameDirs.relocate proper there leaf).keepsDirs.locate target_led, ?_⟩
        rw [node?_relocate proper there (proper.isFilePlace second leaf).ne_nil, if_pos rfl]
    · cases free

end FileTree

end PackPlan
