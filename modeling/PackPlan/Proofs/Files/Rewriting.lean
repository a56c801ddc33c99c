import PackPlan.Proofs.Command.HintFiles

/-!
# Files written again

A file is written as a draft beside its place and moved there. Whether this can be done depends
on the directories alone, and these stay as they are once the directory of the file has been made.
So a file that could be written can be written again, and one that could not still cannot.

## Main definitions

* `FileTree.SameElsewhere` — trees that differ at one place alone, where no directory stands
* `FileTree.Gives` — what stands at one place can take another
* `Job.Takes` — a file can be moved from where its draft is written
* `Job.WriteOutcome` — what becomes of a file that is to be written

## Main results

* `FileTree.makeDirs_of_isAt`, `FileTree.exists_isAt_of_makeDirs` — a directory is made once
* `FileTree.exists_move_iff` — when a file can be moved
* `Job.run_writeFile_outcome` — what becomes of a file is known from the directories
* `Job.WriteOutcome.again_of_ok` — a file that could be written can be written again
* `Job.WriteOutcome.again_of_error` — one that could not still cannot, and stays as it was
-/

namespace PackPlan

namespace FileTree

variable {t t' t'' : FileTree} {p source target : FilePath} {place old new : Location}
  {content content' : Bytes}

/-! ### Making directories -/

theorem makeDir_of_isAt (h : t.IsAt p place) :
    t.makeDir p = .error (.system .present [p.text]) := by
  rw [makeDir, h.led]
  dsimp only [bind, Except.bind]
  rw [h.dir]

theorem makeDirOnce_of_isAt (h : t.IsAt p place) : t.makeDirOnce p = .ok t := by
  have dir : t.isDir? p = .ok true := isDir?_eq_true.2 ⟨place, h⟩
  rw [makeDirOnce, makeDir_of_isAt h, dir]
  rfl

/-- A directory that is there need not be made. -/
theorem makeDirs_of_isAt (h : t.IsAt p place) : t.makeDirs p = .ok t := by
  rw [makeDirs, makeDir_of_isAt h]
  exact makeDirOnce_of_isAt h

theorem exists_isAt_of_makeDirOnce (proper : t.IsProper) (h : t.makeDirOnce p = .ok t') :
    ∃ place, t'.IsAt p place := by
  rw [makeDirOnce] at h
  split at h
  · next made =>
    cases h
    obtain ⟨place, led, vacant, rfl⟩ := exists_of_makeDir made
    have free := proper.isFilePlace led (by rw [vacant]; exact (Option.some_ne_none _).symm)
    refine ⟨place, (KeepsDirs.put free _).locate led, ?_⟩
    rw [node?_put free.ne_nil, if_pos rfl]
  · obtain ⟨there, asked, h⟩ := exists_of_bind_ok h
    split at h
    · next dir =>
      cases h
      rw [dir.2] at asked
      exact isDir?_eq_true.1 asked
    · cases h
  · cases h

/-- A directory that has been made is there. -/
theorem exists_isAt_of_makeDirs (proper : t.IsProper) (h : t.makeDirs p = .ok t') :
    ∃ place, t'.IsAt p place := by
  rw [makeDirs] at h
  split at h
  · split at h
    · cases h
    · obtain ⟨above, made, h⟩ := exists_of_bind_ok h
      exact exists_isAt_of_makeDirOnce (proper.makeDirs made) h
  · exact exists_isAt_of_makeDirOnce proper h

/-- A directory that has been made need not be made again, as long as the directories are there. -/
theorem makeDirs_of_sameDirs {above : FileTree} (proper : t.IsProper)
    (made : t.makeDirs p = .ok above) (same : above.SameDirs t') : t'.makeDirs p = .ok t' := by
  obtain ⟨place, there⟩ := exists_isAt_of_makeDirs proper made
  exact makeDirs_of_isAt (same.keepsDirs.isAt there)

/-! ### One file written -/

theorem writeBytes_of_locate (led : t.locate p = .ok place) (leaf : t.node? place ≠ some .dir) :
    t.writeBytes p content = .ok (t.put place (.file content)) := by
  rw [writeBytes, led]
  dsimp only [bind, Except.bind]
  rw [if_neg leaf]
  rfl

/-- Two trees have the same directories, and differ at one place alone, where none stands. -/
structure SameElsewhere (place : Location) (t t' : FileTree) : Prop where
  dirs : t.SameDirs t'
  node : ∀ other, other ≠ place → t'.node? other = t.node? other

theorem SameElsewhere.put (free : t.IsFilePlace place) (content : Bytes) :
    SameElsewhere place t (t.put place (.file content)) where
  dirs other := by
    rw [node?_put free.ne_nil]
    split
    · next same => exact iff_of_false (same ▸ free.leaf) nofun
    · exact Iff.rfl
  node other apart := by rw [node?_put free.ne_nil, if_neg apart]

/-- What is read from a path that leads elsewhere stays as it is. -/
theorem SameElsewhere.readBytes_iff (h : SameElsewhere place t t')
    (elsewhere : ∀ other, t.locate p = .ok other → other ≠ place) :
    t'.readBytes p = .ok content ↔ t.readBytes p = .ok content := by
  rw [readBytes_eq_ok, readBytes_eq_ok]
  constructor
  · rintro ⟨other, led, there⟩
    have led' := h.dirs.symm.keepsDirs.locate led
    exact ⟨other, led', h.node other (elsewhere other led') ▸ there⟩
  · rintro ⟨other, led, there⟩
    exact ⟨other, h.dirs.keepsDirs.locate led, h.node other (elsewhere other led) ▸ there⟩

/-! ### Moving a file -/

/-- What stands at one place can take another: it is the same place, or neither is within the
other and no directory stands there. -/
def Gives (t : FileTree) (old new : Location) : Prop :=
  old = new ∨ ¬ old.isPrefixOf new ∧ ¬ new.isPrefixOf old ∧ t.node? new ≠ some .dir

theorem SameDirs.gives_iff (h : t.SameDirs t') : t.Gives old new ↔ t'.Gives old new :=
  or_congr_right (and_congr_right fun _ => and_congr_right fun _ => not_congr (h new))

theorem moveObstacle?_eq_none_iff (there : t.node? old = some (.file content)) :
    t.moveObstacle? old new = none ↔ t.Gives old new := by
  rw [moveObstacle?, there, Gives]
  dsimp only
  split
  · next same => exact iff_of_true rfl (.inl same)
  · next apart =>
    rw [or_iff_right apart]
    split
    · next within => exact iff_of_false (Option.some_ne_none _) fun h => h.1 within
    · next outside =>
      split
      · next above => exact iff_of_false (Option.some_ne_none _) fun h => h.2.1 above
      · next below =>
        cases t.node? new with
        | none => exact iff_of_true rfl ⟨outside, below, (Option.some_ne_none _).symm⟩
        | some node =>
          cases node with
          | dir => exact iff_of_false (Option.some_ne_none _) fun h => h.2.2 rfl
          | file content => exact iff_of_true rfl ⟨outside, below, by simp⟩

/-- When a file can be moved. -/
theorem exists_move_iff (led : t.locate source = .ok old)
    (there : t.node? old = some (.file content))
    (names : (endsInName source && endsInName target) = true) :
    (∃ t', t.move source target = .ok t') ↔
      ∃ new, t.locate target = .ok new ∧ t.Gives old new := by
  have first : t.locate source [source, target] = .ok old := locate_congr led
  constructor
  · rintro ⟨t', moved⟩
    obtain ⟨old', first', moved⟩ := exists_of_bind_ok moved
    obtain ⟨new, second, moved⟩ := exists_of_bind_ok moved
    obtain rfl := Except.ok.inj (first.symm.trans first')
    refine ⟨new, locate_congr second, (moveObstacle?_eq_none_iff there).1 ?_⟩
    dsimp only at moved
    rw [if_pos names] at moved
    split at moved
    · cases moved
    · next free => exact free
  · rintro ⟨new, second, gives⟩
    have second : t.locate target [source, target] = .ok new := locate_congr second
    have free := (moveObstacle?_eq_none_iff there).2 gives
    refine ⟨if old = new then t else t.relocate old new, ?_⟩
    rw [move, first, second]
    dsimp only [bind, Except.bind]
    rw [if_pos names, free]
    rfl

/-- A file that has been moved leaves the directories as they are. -/
theorem sameDirs_of_move (proper : t.IsProper) (led : t.locate source = .ok old)
    (there : t.node? old = some (.file content)) (h : t.move source target = .ok t') :
    t'.IsProper ∧ t.SameDirs t' := by
  obtain ⟨old', first, h⟩ := exists_of_bind_ok h
  obtain ⟨new, second, h⟩ := exists_of_bind_ok h
  obtain rfl := Except.ok.inj ((locate_congr led).symm.trans first)
  dsimp only at h
  split at h
  · cases h
  · next free =>
    split at free
    · rcases leaf_of_moveObstacle? there free with same | ⟨apart, leaf⟩
      · rw [if_pos same] at h
        cases h
        exact ⟨proper, .refl _⟩
      · rw [if_neg apart] at h
        cases h
        exact ⟨proper.relocate there (proper.isFilePlace second leaf),
          .relocate proper there leaf⟩
    · cases free

/-! ### Moving a draft -/

section Draft

variable {bytes : Bytes} (proper : t.IsProper) (led : t.locate source = .ok old)
  (leaf : t.node? old ≠ some .dir)
include proper led leaf

theorem locate_put : (t.put old (.file content)).locate source = .ok old :=
  (KeepsDirs.put (proper.isFilePlace led leaf) _).locate led

theorem node?_put_self :
    (t.put old (.file content)).node? old = some (.file content) := by
  rw [node?_put (proper.isFilePlace led leaf).ne_nil, if_pos rfl]

/-- A draft can be moved to a place that it can take. -/
theorem exists_move_put_iff (content : Bytes)
    (names : (endsInName source && endsInName target) = true) :
    (∃ t', (t.put old (.file content)).move source target = .ok t') ↔
      ∃ new, t.locate target = .ok new ∧ t.Gives old new := by
  have dirs := (SameElsewhere.put (proper.isFilePlace led leaf) content).dirs
  rw [exists_move_iff (locate_put proper led leaf) (node?_put_self proper led leaf) names]
  refine exists_congr fun new => and_congr ⟨?_, ?_⟩ dirs.symm.gives_iff
  · exact dirs.symm.keepsDirs.locate
  · exact dirs.keepsDirs.locate

/-- A draft that has been moved is read at its place, and leaves the directories as they are. -/
theorem of_move_put (moved : (t.put old (.file content)).move source target = .ok t') :
    t'.IsProper ∧ t.SameDirs t' ∧ t'.readBytes target = .ok content := by
  have free := proper.isFilePlace led leaf
  have there : (t.put old (.file content)).node? old = some (.file content) :=
    node?_put_self proper led leaf
  have led' : (t.put old (.file content)).locate source = .ok old := locate_put proper led leaf
  have inPlace := proper.put free (.file content)
  obtain ⟨properAfter, kept⟩ := sameDirs_of_move inPlace led' there moved
  exact ⟨properAfter, (SameElsewhere.put free content).dirs.trans kept,
    readBytes_of_move inPlace (readBytes_eq_ok.2 ⟨old, led', there⟩) moved⟩

/-- A draft that cannot be moved leaves what stands at the place as it is. -/
theorem readBytes_put_iff (stuck : ∀ new, t.locate target = .ok new → ¬ t.Gives old new) :
    (t.put old (.file content)).readBytes target = .ok bytes ↔
      t.readBytes target = .ok bytes :=
  (SameElsewhere.put (proper.isFilePlace led leaf) content).readBytes_iff fun other led' same =>
    stuck other led' (.inl same.symm)

end Draft

end FileTree

namespace FilePath

variable {p q : FilePath} {name : String}

theorem name_rename (p : FilePath) (name : String) : (p.rename name).name = name := by
  rw [FilePath.name, rename, List.getLastD_concat]

/-- A name that is longer than a step up is no step. -/
theorem endsInName_rename (long : 2 < name.length) :
    FileTree.endsInName (p.rename name) = true := by
  rw [FileTree.endsInName, name_rename, Bool.and_eq_true, decide_eq_true_eq, decide_eq_true_eq]
  constructor <;>
  · rintro rfl
    exact absurd long (by decide)

theorem endsInName_of_draftPath (h : Job.draftPath p = .ok q) : FileTree.endsInName q = true := by
  rw [Job.draftPath, withSuffix] at h
  split at h
  · cases h
  · split at h
    · cases h
    · cases h
      refine endsInName_rename ?_
      have extension : ".tmp".length = 4 := rfl
      rw [String.length_append, String.length_append]
      omega

end FilePath

namespace Job

open FileTree

variable {w w' : Workspace} {p : FilePath} {content content' : Except Fault String}
  {told : List Notice}

/-- A file can be moved to where a path leads from where its draft is written. -/
def Takes (t : FileTree) (p : FilePath) : Prop :=
  ∃ draft old new, draftPath p = .ok draft ∧ t.locate draft = .ok old ∧
    t.node? old ≠ some .dir ∧ t.locate p = .ok new ∧ t.Gives old new

theorem Takes.of_sameDirs {t t' : FileTree} (takes : Takes t p) (same : t.SameDirs t') :
    Takes t' p := by
  obtain ⟨draft, old, new, named, first, leaf, second, gives⟩ := takes
  exact ⟨draft, old, new, named, same.keepsDirs.locate first, fun dir => leaf ((same old).2 dir),
    same.keepsDirs.locate second, same.gives_iff.1 gives⟩

/-- What becomes of a file that is to be written. -/
inductive WriteOutcome (p : FilePath) (content : Except Fault String) (w : Workspace) :
    Except Fault Unit × Workspace → Prop
  /-- The directory of the file cannot be made. -/
  | nowhere (cause : FileTree.Fault) (unmade : w.files.makeDirs p.parent = .error cause) :
      WriteOutcome p content w (.error (.files cause), w)
  /-- There is no content, or the place cannot be taken. What is read there stays as it is. -/
  | refused (fault : Fault) (w' : Workspace) (above : FileTree)
      (dirs : w.files.makeDirs p.parent = .ok above) (proper : w'.files.IsProper)
      (same : above.SameDirs w'.files)
      (stays : ∀ bytes, w'.files.readBytes p = .ok bytes ↔ above.readBytes p = .ok bytes)
      (reason : (∃ cause, content = .error cause) ∨ ¬ Takes above p) :
      WriteOutcome p content w (.error fault, w')
  /-- The file has its content. -/
  | written (w' : Workspace) (above : FileTree) (text : String)
      (dirs : w.files.makeDirs p.parent = .ok above) (proper : w'.files.IsProper)
      (same : above.SameDirs w'.files) (had : content = .ok text) (takes : Takes above p)
      (read : w'.files.readBytes p = .ok (Utf8.ofString text)) :
      WriteOutcome p content w (.ok (), w')

theorem run_writeFile_outcome (proper : w.files.IsProper) (name : endsInName p = true)
    (content : Except Fault String) :
    WriteOutcome p content w ((writeFile p content).run w) := by
  rw [writeFile, run_bind, run_change]
  cases dirs : w.files.makeDirs p.parent with
  | error cause => exact .nowhere cause dirs
  | ok above =>
    have proper' := proper.makeDirs dirs
    dsimp only
    rw [run_bind, path, run_ofExcept]
    cases named : draftPath p with
    | error cause =>
      refine .refused _ _ above dirs proper' (.refl _) (fun _ => Iff.rfl) (.inr ?_)
      rintro ⟨draft, -, -, named', -⟩
      rw [named] at named'
      cases named'
    | ok draft =>
      dsimp only [Except.mapError]
      rw [run_bind, run_ofExcept]
      cases content with
      | error cause =>
        exact .refused _ _ above dirs proper' (.refl _) (fun _ => Iff.rfl) (.inl ⟨cause, rfl⟩)
      | ok text =>
        dsimp only
        rw [run_bind, run_change]
        dsimp only
        cases drafted : above.writeBytes draft (Utf8.ofString text) with
        | error cause =>
          refine .refused _ _ above dirs proper' (.refl _) (fun _ => Iff.rfl) (.inr ?_)
          rintro ⟨draft', old, -, named', led, leaf, -⟩
          obtain rfl := Except.ok.inj (named.symm.trans named')
          rw [writeBytes_of_locate led leaf] at drafted
          cases drafted
        | ok beside =>
          have inPlace := proper'.writeBytes drafted
          obtain ⟨old, led, leaf, rfl⟩ := exists_of_writeBytes drafted
          have free := proper'.isFilePlace led leaf
          have names : (endsInName draft && endsInName p) = true := by
            rw [FilePath.endsInName_of_draftPath named, name]
            rfl
          have movable := exists_move_put_iff proper' led leaf (Utf8.ofString text) names
          dsimp only
          rw [run_change]
          dsimp only
          cases moved : (above.put old (.file (Utf8.ofString text))).move draft p with
          | error cause =>
            -- nothing else stands in the way, so the draft cannot take the place
            have stuck : ∀ new, above.locate p = .ok new → ¬ above.Gives old new := by
              intro new second gives
              obtain ⟨after, moved'⟩ := movable.2 ⟨new, second, gives⟩
              rw [moved] at moved'
              cases moved'
            refine .refused _ _ above dirs inPlace (SameElsewhere.put free _).dirs
              (fun bytes => readBytes_put_iff proper' led leaf stuck) (.inr ?_)
            rintro ⟨draft', old', new, named', first, -, second, gives⟩
            obtain rfl := Except.ok.inj (named.symm.trans named')
            obtain rfl := Except.ok.inj (led.symm.trans first)
            exact stuck new second gives
          | ok after =>
            obtain ⟨new, second, gives⟩ := movable.1 ⟨after, moved⟩
            obtain ⟨properAfter, same, read⟩ := of_move_put proper' led leaf moved
            exact .written _ above text dirs properAfter same rfl
              ⟨draft, old, new, named, led, leaf, second, gives⟩ read

theorem WriteOutcome.isProper {r : Except Fault Unit} (proper : w.files.IsProper)
    (outcome : WriteOutcome p content w (r, w')) : w'.files.IsProper := by
  cases outcome with
  | nowhere _ _ => exact proper
  | refused _ _ _ _ proper' _ _ _ => exact proper'
  | written _ _ _ _ proper' _ _ _ _ => exact proper'

section Again

variable {r : Except Fault Unit} {w'' : Workspace} {text : String} {fault : Fault}
  (proper : w.files.IsProper)
include proper

/-- A file that could be written can be written again. -/
theorem WriteOutcome.again_of_ok (first : WriteOutcome p (.ok text) w (.ok (), w'))
    (second : WriteOutcome p (.ok text) { w' with notices := told } (r, w'')) :
    r = .ok () ∧ ∀ bytes, w''.files.readBytes p = .ok bytes ↔ w'.files.readBytes p = .ok bytes := by
  cases first with
  | written _ above text' dirs _ same had takes read =>
    obtain rfl := Except.ok.inj had
    have there := makeDirs_of_sameDirs proper dirs same
    cases second with
    | nowhere cause unmade =>
      rw [there] at unmade
      cases unmade
    | refused _ _ above' dirs' _ _ _ reason =>
      obtain rfl := Except.ok.inj (there.symm.trans dirs')
      rcases reason with ⟨cause, had'⟩ | stuck
      · cases had'
      · exact absurd (takes.of_sameDirs same) stuck
    | written _ above' text' _ _ _ had' _ read' =>
      obtain rfl := Except.ok.inj had'
      exact ⟨rfl, fun bytes => by rw [read, read']⟩

/-- A file that could not be written still cannot, whatever its content, and stays as it is. -/
theorem WriteOutcome.again_of_error (first : WriteOutcome p (.ok text) w (.error fault, w'))
    (second : WriteOutcome p content { w' with notices := told } (r, w'')) :
    r ≠ .ok () ∧ ∀ bytes, w''.files.readBytes p = .ok bytes ↔ w'.files.readBytes p = .ok bytes := by
  cases first with
  | nowhere cause unmade =>
    have refused : ∀ above, w.files.makeDirs p.parent ≠ .ok above := by
      intro above dirs
      rw [unmade] at dirs
      cases dirs
    cases second with
    | nowhere _ _ => exact ⟨nofun, fun bytes => Iff.rfl⟩
    | refused _ _ above dirs _ _ _ _ => exact absurd dirs (refused above)
    | written _ above _ dirs _ _ _ _ _ => exact absurd dirs (refused above)
  | refused _ _ above dirs _ same _ reason =>
    have there := makeDirs_of_sameDirs proper dirs same
    have stuck : ¬ Takes above p := reason.resolve_left nofun
    cases second with
    | nowhere _ _ => exact ⟨nofun, fun bytes => Iff.rfl⟩
    | refused _ _ above' dirs' _ _ stays' _ =>
      obtain rfl := Except.ok.inj (there.symm.trans dirs')
      exact ⟨nofun, stays'⟩
    | written _ above' _ dirs' _ _ _ takes _ =>
      obtain rfl := Except.ok.inj (there.symm.trans dirs')
      exact absurd (takes.of_sameDirs same.symm) stuck

end Again

end Job

end PackPlan
