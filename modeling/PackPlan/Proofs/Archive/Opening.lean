import PackPlan.Proofs.Archive.Discovery
import PackPlan.Proofs.Archive.Indexing
import PackPlan.Proofs.Files.Changes

/-!
# What opening a container does to the files

A container that still has its legacy name gets its own before it is read, unless something is
against it. Whether something is depends only on what stands under the two names, and nothing
else is touched; so a container that has been opened once is found as it was left when it is
opened again.

## Main definitions

* `Containers.legacyPlace`, `Containers.ownPlace` — where the two names of a container are
* `Containers.IsStem` — a stem of which both names can stand in a directory
* `Containers.refusal?` — why a container keeps its legacy name, if it does
* `Containers.opened` — what comes of opening a container
* `Containers.Moved` — some containers have got their names, and nothing else has changed

## Main results

* `Containers.run_openContainer_eq` — opening a container, as a function of the files
* `Containers.Moved.opened` — what one more container changes
* `Containers.opened_again` — opening a container that has been opened
-/

namespace PackPlan

namespace Containers

variable {reader : Reader} {overwrite : Bool} {d : FilePath} {base place : Location}
  {t t' : FileTree} {start stem other : String} {old new : Option Node} {content : Bytes}
  {fault : Fault} {w : Workspace} {moved moved' : String → Prop}

/-! ### The two names of a container -/

/-- Where a container stands in a directory that has not been renamed. -/
def legacyPlace (base : Location) (stem : String) : Location := base ++ [stem ++ legacyExtension]

/-- Where a container stands in a directory. -/
def ownPlace (base : Location) (stem : String) : Location := base ++ [stem ++ extension]

theorem append_legacyExtension_ne (stem other : String) :
    stem ++ legacyExtension ≠ other ++ extension := by
  intro same
  have same := congrArg String.toList same
  have split : extension.toList = ['.'] ++ ['b', 'p', 'a', 'k'] := by decide
  rw [String.toList_append, String.toList_append, split, ← List.append_assoc] at same
  exact absurd (List.append_inj_right' same (by decide)) (by decide)

theorem legacyPlace_ne_ownPlace (base : Location) (stem other : String) :
    legacyPlace base stem ≠ ownPlace base other := by
  intro same
  exact append_legacyExtension_ne stem other (by simpa [legacyPlace, ownPlace] using same)

theorem legacyPlace_inj : legacyPlace base stem = legacyPlace base other ↔ stem = other := by
  simp [legacyPlace, String.append_left_inj]

theorem ownPlace_inj : ownPlace base stem = ownPlace base other ↔ stem = other := by
  simp [ownPlace, String.append_left_inj]

/-- A legacy name is shorter than the name that takes its place. -/
theorem isShort_legacyExtension (short : d.isShort (stem ++ extension) = true) :
    d.isShort (stem ++ legacyExtension) = true := by
  obtain ⟨front, text⟩ := FilePath.exists_text_below d
  have whole : ∀ name, (Search.below d name).text = String.ofList front ++ name := by
    intro name
    apply String.toList_injective
    rw [text, String.toList_append, String.toList_ofList]
  have four : legacyExtension.utf8ByteSize = 4 := by decide
  have five : extension.utf8ByteSize = 5 := by decide
  rw [FilePath.isShort, Bool.and_eq_true, decide_eq_true_eq, decide_eq_true_eq, whole,
    String.utf8ByteSize_append, String.utf8ByteSize_append] at short ⊢
  omega

/-- A stem of which both names can stand in a directory. -/
structure IsStem (t : FileTree) (d : FilePath) (base : Location) (stem : String) : Prop where
  isAt : t.IsAt d base
  ne_empty : stem ≠ ""
  plain : '/' ∉ stem.toList
  nul : '\x00' ∉ stem.toList
  short : d.isShort (stem ++ legacyExtension) = true

namespace IsStem

theorem isName_legacy (h : IsStem t d base stem) : FilePath.IsName (stem ++ legacyExtension) :=
  isExtension_legacyExtension.isName h.ne_empty h.plain

theorem isName (h : IsStem t d base stem) : FilePath.IsName (stem ++ extension) :=
  isExtension_extension.isName h.ne_empty h.plain

theorem nul_legacy (h : IsStem t d base stem) : '\x00' ∉ (stem ++ legacyExtension).toList := by
  rw [String.toList_append, List.mem_append, not_or]
  exact ⟨h.nul, by decide⟩

theorem nul_extension (h : IsStem t d base stem) : '\x00' ∉ (stem ++ extension).toList := by
  rw [String.toList_append, List.mem_append, not_or]
  exact ⟨h.nul, by decide⟩

/-- The names can stand in the directory as long as it is there. -/
theorem mono (h : IsStem t d base stem) (kept : t.KeepsDirs t') : IsStem t' d base stem :=
  { h with isAt := kept.isAt h.isAt }

theorem locate_legacy (h : IsStem t d base stem) (paths : List FilePath) :
    t.locate (legacyPath d stem) paths = .ok (legacyPlace base stem) := by
  rw [legacyPath, h.isAt.locate_below h.isName_legacy h.nul_legacy, if_pos h.short]
  rfl

theorem locate_container (h : IsStem t d base stem) (paths : List FilePath)
    (short : d.isShort (stem ++ extension) = true) :
    t.locate (container d stem) paths = .ok (ownPlace base stem) := by
  rw [container, h.isAt.locate_below h.isName h.nul_extension, if_pos short]
  rfl

theorem exists?_legacy (h : IsStem t d base stem) :
    t.exists? (legacyPath d stem) = .ok (t.node? (legacyPlace base stem)).isSome := by
  rw [FileTree.exists?, FileTree.find?_of_locate (h.locate_legacy [legacyPath d stem])]
  rfl

theorem exists?_container (h : IsStem t d base stem) : t.exists? (container d stem) =
    if d.isShort (stem ++ extension) then .ok (t.node? (ownPlace base stem)).isSome
    else .error (.system .nameTooLong [(container d stem).text]) := by
  rw [FileTree.exists?, container, h.isAt.find?_below h.isName h.nul_extension]
  cases d.isShort (stem ++ extension) <;> rfl

theorem readBytes_legacy (h : IsStem t d base stem) : t.readBytes (legacyPath d stem) =
    .ok content ↔ t.node? (legacyPlace base stem) = some (.file content) := by
  rw [FileTree.readBytes_eq_ok]
  constructor
  · rintro ⟨place, led, there⟩
    rw [h.locate_legacy] at led
    rwa [Except.ok.inj led]
  · exact fun there => ⟨_, h.locate_legacy [legacyPath d stem], there⟩

theorem readBytes_container (h : IsStem t d base stem) : t.readBytes (container d stem) =
    .ok content ↔ d.isShort (stem ++ extension) = true ∧
      t.node? (ownPlace base stem) = some (.file content) := by
  rw [FileTree.readBytes_eq_ok, container, h.isAt.locate_below h.isName h.nul_extension]
  constructor
  · rintro ⟨place, led, there⟩
    split at led
    · next short =>
      obtain rfl := Except.ok.inj led
      exact ⟨short, there⟩
    · cases led
  · rintro ⟨short, there⟩
    exact ⟨_, if_pos short, there⟩

end IsStem

/-- Both names of a stem that is found can stand in the directory. -/
theorem IsFound.isStem (h : IsFound t d start stem) (isStart : IsStart start)
    (isAt : t.IsAt d base) : IsStem t d base stem := by
  have nonempty := h.starts.ne_empty isStart
  -- a file under either name tells of its characters and of its length
  have named : ∀ {ext : String} {letters : List Char}, IsExtension ext letters →
      t.isFile? (Search.below d (stem ++ ext)) = .ok true →
        d.isShort (stem ++ ext) = true ∧ '\x00' ∉ stem.toList := by
    intro ext letters isExtension file
    obtain ⟨content, read⟩ := FileTree.isFile?_eq_true.1 file
    obtain ⟨place, led, -⟩ := FileTree.readBytes_eq_ok.1 read
    obtain ⟨-, -, -, short, nul⟩ := FileTree.exists_isAt_of_locate_below
      (isExtension.isName nonempty h.starts.plain) led
    rw [String.toList_append, List.mem_append, not_or] at nul
    exact ⟨short, nul.1⟩
  rcases h.file with legacy | own
  · obtain ⟨short, nul⟩ := named isExtension_legacyExtension legacy
    exact ⟨isAt, nonempty, h.starts.plain, nul, short⟩
  · obtain ⟨short, nul⟩ := named isExtension_extension own
    exact ⟨isAt, nonempty, h.starts.plain, nul, isShort_legacyExtension short⟩

/-- Under one of the two names of a container stands a file. -/
def HasFile (d : FilePath) (stem : String) (old new : Option Node) : Prop :=
  (∃ content, old = some (.file content)) ∨
    d.isShort (stem ++ extension) = true ∧ ∃ content, new = some (.file content)

/-- A stem with a file under one of its two names. -/
structure IsContainer (t : FileTree) (d : FilePath) (base : Location) (stem : String) : Prop
    extends IsStem t d base stem where
  file : HasFile d stem (t.node? (legacyPlace base stem)) (t.node? (ownPlace base stem))

theorem IsFound.isContainer (h : IsFound t d start stem) (isStart : IsStart start)
    (isAt : t.IsAt d base) : IsContainer t d base stem := by
  have isStem := h.isStem isStart isAt
  refine ⟨isStem, h.file.imp (fun legacy => ?_) fun own => ?_⟩
  · exact (FileTree.isFile?_eq_true.1 legacy).imp fun _ => isStem.readBytes_legacy.1
  · obtain ⟨content, read⟩ := FileTree.isFile?_eq_true.1 own
    obtain ⟨short, there⟩ := isStem.readBytes_container.1 read
    exact ⟨short, content, there⟩

/-! ### Renaming -/

/-- What keeps one thing from the place of another, if one of the two is a file. -/
def obstacle? : (old new : Option Node) → Option FileTree.Errno
  | some (.file _), some .dir => some .isDirectory
  | some .dir, some (.file _) => some .notDirectory
  | _, _ => none

theorem obstacle?_none (old : Option Node) : obstacle? old none = none := by
  rcases old with _ | _ | content <;> rfl

/-- Why a container keeps its legacy name, if it does, by what stands under that name and under
its own. -/
def refusal? (overwrite : Bool) (d : FilePath) (stem : String) (old new : Option Node) :
    Option Fault :=
  if old = none then none
  else if d.isShort (stem ++ extension) = false then
    some (.files (.system .nameTooLong [(container d stem).text]))
  else if new ≠ none ∧ overwrite = false then some (.overwrite (container d stem).text)
  else (obstacle? old new).map fun reason =>
    .files (.system reason [(legacyPath d stem).text, (container d stem).text])

/-- A container that does not keep its legacy name has no such name, or is a file that takes no
directory's place. -/
theorem cases_of_refusal?_none (h : refusal? overwrite d stem old new = none)
    (file : HasFile d stem old new) : d.isShort (stem ++ extension) = true ∧
      ((old = none ∧ ∃ content, new = some (.file content)) ∨
        new ≠ some .dir ∧ ∃ content, old = some (.file content)) := by
  rw [refusal?] at h
  split at h
  · next absent =>
    obtain ⟨short, there⟩ := file.resolve_left (by rw [absent]; exact nofun)
    exact ⟨short, .inl ⟨absent, there⟩⟩
  split at h
  · cases h
  · next there short =>
    split at h
    · cases h
    · rw [Option.map_eq_none_iff] at h
      refine ⟨by simpa using short, .inr ?_⟩
      rcases old with _ | _ | content
      · exact absurd rfl there
      · obtain ⟨-, content, rfl⟩ := file.resolve_left nofun
        cases h
      · refine ⟨?_, content, rfl⟩
        rintro rfl
        cases h

theorem isPrefixOf_concat_eq_false {name name' : String} (apart : name ≠ name') :
    (base ++ [name]).isPrefixOf (base ++ [name']) = false := by
  rw [Bool.eq_false_iff, ne_eq, List.isPrefixOf_iff_prefix, List.prefix_append_right_inj]
  intro starts
  rw [List.cons_prefix_cons] at starts
  exact apart starts.1

/-- What keeps what stands under a legacy name from the name of the container. -/
theorem moveObstacle?_eq (there : t.node? (legacyPlace base stem) ≠ none)
    (file : HasFile d stem (t.node? (legacyPlace base stem)) (t.node? (ownPlace base stem))) :
    t.moveObstacle? (legacyPlace base stem) (ownPlace base stem) =
      obstacle? (t.node? (legacyPlace base stem)) (t.node? (ownPlace base stem)) := by
  have apart := append_legacyExtension_ne stem stem
  have source : (legacyPlace base stem).isPrefixOf (ownPlace base stem) = false :=
    isPrefixOf_concat_eq_false apart
  have target : (ownPlace base stem).isPrefixOf (legacyPlace base stem) = false :=
    isPrefixOf_concat_eq_false apart.symm
  rw [FileTree.moveObstacle?, source, target]
  generalize t.node? (legacyPlace base stem) = old at there file
  generalize t.node? (ownPlace base stem) = new at file
  rcases old with _ | node
  · exact absurd rfl there
  · dsimp only
    rw [if_neg (legacyPlace_ne_ownPlace base stem stem), if_neg Bool.false_ne_true,
      if_neg Bool.false_ne_true]
    rcases node with _ | content
    · obtain ⟨content, same⟩ | ⟨-, content, rfl⟩ := file
      · cases same
      · rfl
    · rcases new with _ | _ | content' <;> rfl

theorem endsInName_below {name : String} (isName : FilePath.IsName name) :
    FileTree.endsInName (Search.below d name) = true := by
  rw [FileTree.endsInName, FilePath.name, Search.below, List.getLastD_concat, Bool.and_eq_true,
    decide_eq_true_eq, decide_eq_true_eq]
  exact ⟨isName.ne_empty, isName.ne_up⟩

/-- The files after a container has got its name, if it had not got it. -/
def settled (t : FileTree) (base : Location) (stem : String) : FileTree :=
  if t.node? (legacyPlace base stem) = none then t
  else t.relocate (legacyPlace base stem) (ownPlace base stem)

theorem move_eq (h : IsContainer t d base stem) (short : d.isShort (stem ++ extension) = true)
    (there : t.node? (legacyPlace base stem) ≠ none) :
    t.move (legacyPath d stem) (container d stem) =
      match obstacle? (t.node? (legacyPlace base stem)) (t.node? (ownPlace base stem)) with
      | some reason =>
        .error (.system reason [(legacyPath d stem).text, (container d stem).text])
      | none => .ok (t.relocate (legacyPlace base stem) (ownPlace base stem)) := by
  have names : (FileTree.endsInName (legacyPath d stem) &&
      FileTree.endsInName (container d stem)) = true := by
    rw [legacyPath, container, endsInName_below h.isName_legacy, endsInName_below h.isName]
    rfl
  rw [FileTree.move, h.locate_legacy, h.locate_container _ short]
  change (match if (FileTree.endsInName (legacyPath d stem) &&
      FileTree.endsInName (container d stem)) = true
        then t.moveObstacle? (legacyPlace base stem) (ownPlace base stem)
        else some FileTree.Errno.busy with
    | some reason => _
    | none => _) = _
  rw [if_pos names, moveObstacle?_eq there h.file]
  cases obstacle? (t.node? (legacyPlace base stem)) (t.node? (ownPlace base stem)) with
  | some reason => rfl
  | none => exact congrArg Except.ok (if_neg (legacyPlace_ne_ownPlace base stem stem))

/-- Renaming, by what stands under the two names. -/
theorem run_rename (h : IsContainer w.files d base stem) :
    (rename (legacyPath d stem) (container d stem) overwrite).run w =
      match refusal? overwrite d stem (w.files.node? (legacyPlace base stem))
        (w.files.node? (ownPlace base stem)) with
      | some fault => (.error fault, w)
      | none => (.ok (w.files.node? (legacyPlace base stem)).isSome,
          { w with files := settled w.files base stem }) := by
  rw [rename, Job.run_bind, Job.run_ask, h.exists?_legacy, settled, refusal?]
  by_cases absent : w.files.node? (legacyPlace base stem) = none
  · rw [if_pos absent, if_pos absent, absent]
    rfl
  · rw [if_neg absent, if_neg absent, Option.isSome_iff_ne_none.2 absent]
    change (Job.guardOverwrite (container d stem) overwrite >>= fun _ =>
      Job.change (·.move (legacyPath d stem) (container d stem)) >>= fun _ => pure true).run w = _
    rw [Job.run_bind, Job.run_guardOverwrite, h.exists?_container]
    by_cases short : d.isShort (stem ++ extension) = true
    · rw [if_pos short, if_neg (by rw [short]; exact Bool.false_ne_true.symm)]
      dsimp only
      by_cases taken : w.files.node? (ownPlace base stem) ≠ none ∧ overwrite = false
      · rw [if_pos taken, if_pos (by simp [Option.isSome_iff_ne_none, taken])]
      · rw [if_neg taken, if_neg (by simpa [Option.isSome_iff_ne_none] using taken)]
        dsimp only
        rw [Job.run_bind, Job.run_change, move_eq h short absent]
        cases obstacle? (w.files.node? (legacyPlace base stem))
          (w.files.node? (ownPlace base stem)) <;> rfl
    · rw [if_neg short, if_pos (Bool.eq_false_iff.2 short)]

theorem withSuffix_container (nonempty : stem ≠ "") :
    (container d stem).withSuffix legacyExtension = .ok (legacyPath d stem) := by
  have name : (container d stem).name = stem ++ extension := by
    rw [FilePath.name, container, Search.below, List.getLastD_concat]
  have named : (container d stem).name ≠ "" := by
    rw [name]
    intro empty
    exact absurd (length_le_of_append_extension empty) (by decide)
  have isExtension := isExtension_extension
  rw [FilePath.withSuffix, if_neg (by decide), if_neg named, container,
    FilePath.stem_below isExtension.dot nonempty isExtension.some isExtension.not_dot,
    FilePath.rename, Search.below, List.dropLast_concat]
  rfl

/-! ### Opening -/

/-- What comes of opening a container: what the reader says of it, if it does not have to keep its
legacy name, and the files after it. -/
def opened (reader : Reader) (overwrite : Bool) (d : FilePath) (base : Location) (t : FileTree)
    (stem : String) : Except Fault (List Archive.Entry) × FileTree :=
  match refusal? overwrite d stem (t.node? (legacyPlace base stem))
    (t.node? (ownPlace base stem)) with
  | some fault => (.error fault, t)
  | none => (reader (settled t base stem) (container d stem), settled t base stem)

/-- Opening a container, as a function of the files. -/
theorem run_openContainer_eq (reader : Reader) (overwrite : Bool)
    (h : IsContainer w.files d base stem) :
    ∃ told, (openContainer reader overwrite (container d stem)).run w =
      ((opened reader overwrite d base w.files stem).1,
        ⟨(opened reader overwrite d base w.files stem).2, told⟩) := by
  rw [run_openContainer (withSuffix_container h.ne_empty), run_rename h, opened]
  cases refusal? overwrite d stem (w.files.node? (legacyPlace base stem))
      (w.files.node? (ownPlace base stem)) with
  | some fault => exact ⟨w.notices, rfl⟩
  | none =>
    cases (w.files.node? (legacyPlace base stem)).isSome with
    | false => exact ⟨w.notices, rfl⟩
    | true => exact ⟨_, rfl⟩

theorem IsStem.isFilePlace (isStem : IsStem t d base stem) (proper : t.IsProper)
    (leaf : t.node? (ownPlace base stem) ≠ some .dir) : t.IsFilePlace (ownPlace base stem) where
  plain := by
    rw [ownPlace, List.forall_mem_append]
    refine ⟨proper.plain (by rw [isStem.isAt.dir]; exact nofun), ?_⟩
    rw [List.forall_mem_singleton]
    exact isStem.isName.plain
  parent := by
    rw [ownPlace, List.dropLast_concat]
    exact isStem.isAt.dir
  leaf := leaf

/-- What stands under the two names of a container that has got its own. -/
theorem node?_settled (proper : t.IsProper) (h : IsContainer t d base stem)
    (free : refusal? overwrite d stem (t.node? (legacyPlace base stem))
      (t.node? (ownPlace base stem)) = none) :
    (settled t base stem).node? (legacyPlace base stem) = none ∧
      ∃ content, (settled t base stem).node? (ownPlace base stem) = some (.file content) := by
  obtain ⟨-, ⟨absent, there⟩ | ⟨-, content, there⟩⟩ := cases_of_refusal?_none free h.file
  · rw [settled, if_pos absent]
    exact ⟨absent, there⟩
  · have apart := legacyPlace_ne_ownPlace base stem stem
    rw [settled, if_neg (by rw [there]; exact nofun),
      FileTree.node?_relocate proper there (by simp [ownPlace]),
      FileTree.node?_relocate proper there (by simp [ownPlace]), if_neg apart, if_pos rfl,
      if_pos rfl]
    exact ⟨rfl, content, rfl⟩

/-! ### Other files -/

/-- Some containers of a directory have got their own names, and nothing else has changed. -/
structure Moved (t : FileTree) (base : Location) (moved : String → Prop) (t' : FileTree) :
    Prop where
  proper : t'.IsProper
  dirs : t.SameDirs t'
  gone : ∀ stem, moved stem → t'.node? (legacyPlace base stem) = none
  content : ∀ stem, moved stem →
    t'.node? (ownPlace base stem) = t.node? (legacyPlace base stem)
  kept : ∀ place, (∀ stem, moved stem → place ≠ legacyPlace base stem ∧
    place ≠ ownPlace base stem) → t'.node? place = t.node? place

/-- Whether a container gets its own name. -/
def Moves (overwrite : Bool) (d : FilePath) (t : FileTree) (base : Location) (stem : String) :
    Prop :=
  t.node? (legacyPlace base stem) ≠ none ∧ refusal? overwrite d stem
    (t.node? (legacyPlace base stem)) (t.node? (ownPlace base stem)) = none

namespace Moved

theorem none (proper : t.IsProper) : Moved t base (fun _ => False) t where
  proper := proper
  dirs := .refl t
  gone _ := False.elim
  content _ := False.elim
  kept _ _ := rfl

theorem congr (h : Moved t base moved t') (same : ∀ stem, moved stem ↔ moved' stem) :
    Moved t base moved' t' := by
  rwa [← funext fun stem => propext (same stem)]

/-- A container that has not been moved is as it was. -/
theorem node?_of_not (h : Moved t base moved t') (fresh : ¬moved stem) :
    t'.node? (legacyPlace base stem) = t.node? (legacyPlace base stem) ∧
      t'.node? (ownPlace base stem) = t.node? (ownPlace base stem) := by
  have apart : ∀ other, moved other → stem ≠ other := by
    rintro other done rfl
    exact fresh done
  refine ⟨h.kept _ fun other done => ?_, h.kept _ fun other done => ?_⟩
  · rw [ne_eq, legacyPlace_inj]
    exact ⟨apart other done, legacyPlace_ne_ownPlace base stem other⟩
  · rw [ne_eq (ownPlace base stem) (ownPlace base other), ownPlace_inj]
    exact ⟨(legacyPlace_ne_ownPlace base other stem).symm, apart other done⟩

/-- One more container gets its own name. -/
theorem relocate (h : Moved t base moved t') (fresh : ¬moved stem)
    (there : t.node? (legacyPlace base stem) = some (.file content))
    (free : t'.IsFilePlace (ownPlace base stem)) :
    Moved t base (fun other => moved other ∨ other = stem)
      (t'.relocate (legacyPlace base stem) (ownPlace base stem)) := by
  have here : t'.node? (legacyPlace base stem) = some (.file content) := by
    rw [(h.node?_of_not fresh).1, there]
  have found := FileTree.node?_relocate h.proper here free.ne_nil
  refine ⟨h.proper.relocate here free,
    h.dirs.trans (FileTree.SameDirs.relocate h.proper here free.leaf), ?_, ?_, ?_⟩
  · intro other done
    rw [found, if_neg (legacyPlace_ne_ownPlace base other stem)]
    split
    · rfl
    · next apart => exact h.gone other (done.resolve_right fun same => apart (by rw [same]))
  · intro other done
    rw [found]
    split
    · next same => rw [ownPlace_inj.1 same, there]
    · next apart =>
      rw [if_neg (legacyPlace_ne_ownPlace base stem other).symm]
      exact h.content other (done.resolve_right fun same => apart (by rw [same]))
  · intro place apart
    obtain ⟨old, new⟩ := apart stem (.inr rfl)
    rw [found, if_neg new, if_neg old]
    exact h.kept place fun other done => apart other (.inl done)

theorem isStem (h : Moved t base moved t') (isStem : IsStem t d base stem) :
    IsStem t' d base stem := isStem.mono h.dirs.keepsDirs

theorem isContainer (h : Moved t base moved t') (c : IsContainer t d base stem)
    (fresh : ¬moved stem) : IsContainer t' d base stem := by
  obtain ⟨old, new⟩ := h.node?_of_not fresh
  exact ⟨h.isStem c.toIsStem, by rw [old, new]; exact c.file⟩

/-- One more container is opened. -/
theorem opened (h : Moved t base moved t') (c : IsContainer t d base stem)
    (fresh : ¬moved stem) :
    Moved t base (fun other => moved other ∨ other = stem ∧ Moves overwrite d t base stem)
      (opened reader overwrite d base t' stem).2 := by
  obtain ⟨old, new⟩ := h.node?_of_not fresh
  rw [Containers.opened, settled, old, new]
  -- where the container stays where it is, so does everything
  have still : ¬Moves overwrite d t base stem →
      Moved t base (fun other => moved other ∨ other = stem ∧ Moves overwrite d t base stem) t' :=
    fun stays => h.congr fun other => by simp [stays]
  cases free : refusal? overwrite d stem (t.node? (legacyPlace base stem))
      (t.node? (ownPlace base stem)) with
  | some fault => exact still fun moves => by rw [moves.2] at free; cases free
  | none =>
    obtain ⟨-, ⟨absent, -⟩ | ⟨leaf, content, there⟩⟩ := cases_of_refusal?_none free c.file
    · dsimp only
      rw [if_pos absent]
      exact still fun moves => moves.1 absent
    · have moves : Moves overwrite d t base stem := ⟨by rw [there]; exact nofun, free⟩
      dsimp only
      rw [if_neg moves.1]
      refine (h.relocate fresh there ?_).congr fun other => by simp [moves]
      exact (h.isStem c.toIsStem).isFilePlace h.proper (by rwa [new])

end Moved

/-! ### Opening once more -/

theorem opened_of_refusal? (h : refusal? overwrite d stem (t.node? (legacyPlace base stem))
    (t.node? (ownPlace base stem)) = some fault) :
    opened reader overwrite d base t stem = (.error fault, t) := by
  rw [opened, h]

/-- A container that has its own name is read as it is. -/
theorem opened_of_absent (absent : t.node? (legacyPlace base stem) = none) :
    opened reader overwrite d base t stem = (reader t (container d stem), t) := by
  rw [opened, settled, if_pos absent, absent]
  rfl

/-- A reader tells what is in a container by its path and its content alone. -/
def ReadsContent (reader : Reader) : Prop :=
  ∀ {t t' : FileTree} {p : FilePath} {content : Bytes}, t.readBytes p = .ok content →
    t'.readBytes p = .ok content → reader t p = reader t' p

/-- Opening a container that has been opened says the same and changes nothing. -/
theorem opened_again (reads : ReadsContent reader) (proper : t.IsProper)
    (h : IsContainer t d base stem) (again : IsStem t' d base stem)
    (old : t'.node? (legacyPlace base stem) =
      (opened reader overwrite d base t stem).2.node? (legacyPlace base stem))
    (new : t'.node? (ownPlace base stem) =
      (opened reader overwrite d base t stem).2.node? (ownPlace base stem)) :
    opened reader overwrite d base t' stem = ((opened reader overwrite d base t stem).1, t') := by
  cases free : refusal? overwrite d stem (t.node? (legacyPlace base stem))
      (t.node? (ownPlace base stem)) with
  | some fault =>
    rw [opened_of_refusal? free] at old new ⊢
    exact opened_of_refusal? (by rw [old, new, free])
  | none =>
    obtain ⟨absent, content, there⟩ := node?_settled proper h free
    have short := (cases_of_refusal?_none free h.file).1
    have after : IsStem (opened reader overwrite d base t stem).2 d base stem :=
      ((Moved.none proper).opened h id).isStem h.toIsStem
    have once : opened reader overwrite d base t stem =
        (reader (settled t base stem) (container d stem), settled t base stem) := by
      rw [opened, free]
    rw [once] at old new after ⊢
    rw [opened_of_absent (old.trans absent)]
    have here := again.readBytes_container.2 ⟨short, new.trans there⟩
    exact congrArg (·, t') (reads here (after.readBytes_container.2 ⟨short, there⟩))

end Containers

end PackPlan
