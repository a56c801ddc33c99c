import PackPlan.Command.Bundles
import PackPlan.Command.Merging
import PackPlan.Command.Plans
import PackPlan.Command.Seeds
import PackPlan.Proofs.Archive.Containers
import PackPlan.Proofs.Effects

/-!
# Refusals come first

A request is refused for a hint file that cannot be taken, for what it asks, or because a file
would be overwritten. Whatever can be refused is looked at before any file is touched: the steps
up to the last refusal leave the files as they are, and the steps after it stop with other
faults only.

## Main definitions

* `Fault.isRefusal` — the faults that refuse a request
* `Job.StopsFirst` — where a job stops with a fault of a kind, the files are as they were

## Main results

* `Job.StopsFirst.bind`, `Job.StopsOnly.stopsFirst` — what comes before such a fault, and what
  comes after the last one
* `Containers.stopsOnly_index` — refused renames are contained in the index
* `refusal_leaves_files` — no job that refuses has touched a file
-/

namespace PackPlan

/-! ### Faults that refuse -/

/-- The kinds of refusals, by which a collaborator's fault may call itself. -/
def Fault.refusalKinds : List String :=
  ["HintFileError", "InputValidationError", "OverwriteBlockedError"]

/-- Whether a request is refused: a hint file cannot be taken, what is asked cannot be done, or a
file would be overwritten. -/
def Fault.isRefusal : Fault → Bool
  | .hints _ | .input _ | .overwrite _ => true
  | .foreign _ kind _ => refusalKinds.contains kind
  | _ => false

variable {α β : Type} {K P : Fault → Prop} {fault : Fault} {text : String}

namespace Job

variable {m : Job α} {f : α → Job β}

/-- Where a job stops with a fault of a kind, the files are as they were before it. -/
def StopsFirst (K : Fault → Prop) (m : Job α) : Prop :=
  ∀ w fault w', m.run w = (.error fault, w') → K fault → w'.files = w.files

theorem IsStill.stopsFirst (h : m.IsStill) : m.StopsFirst K := by
  intro w fault w' stopped kind
  have same := h w
  rwa [stopped] at same

/-- A job that does not stop with a fault of the kind may do anything. -/
theorem StopsOnly.stopsFirst (h : m.StopsOnly fun fault => ¬ K fault) : m.StopsFirst K := by
  intro w fault w' stopped kind
  exact absurd kind (h w fault (congrArg Prod.fst stopped))

/-- What comes before a fault of the kind leaves the files as they are. -/
theorem StopsFirst.bind (first : m.IsStill) (rest : ∀ a, (f a).StopsFirst K) :
    (m >>= f).StopsFirst K := by
  intro w fault w' stopped kind
  have same := first w
  rw [run_bind] at stopped
  split at stopped
  · next a mid ran =>
    rw [ran] at same
    exact (rest a mid fault w' stopped kind).trans same
  · next other mid ran =>
    cases stopped
    rwa [ran] at same

/-- What comes after the last fault of the kind may do anything. -/
theorem StopsFirst.bind_stopsOnly (first : m.StopsFirst K)
    (rest : ∀ a, (f a).StopsOnly fun fault => ¬ K fault) : (m >>= f).StopsFirst K := by
  intro w fault w' stopped kind
  rw [run_bind] at stopped
  split at stopped
  · next a mid ran => exact absurd kind (rest a mid fault (congrArg Prod.fst stopped))
  · next other mid ran =>
    cases stopped
    exact first w fault _ ran kind

/-- A text that is there is written, or the file system or the path is against it. -/
theorem stopsOnly_writeFile_ok (files : ∀ cause, P (.files cause))
    (path : ∀ cause, P (.path cause)) (p : FilePath) : StopsOnly P (writeFile p (.ok text)) := by
  refine stopsOnly_writeFile files path ?_ p
  intro fault h
  cases h

end Job

/-! ### Hint files -/

namespace HintFiles

theorem fault_of_render {v : Json.Value} (h : Hints.render v = .error fault) :
    fault = .longNumber := by
  rw [Hints.render] at h
  split at h
  · cases h
  · cases h
    rfl

/-- Writing a hint file is not refused any more. -/
theorem stopsFirst_write (records : List Record) (p : FilePath) :
    (write records p).StopsFirst (·.isRefusal = true) := by
  -- an entry can be refused while the document is made, before anything is written
  apply Job.StopsFirst.bind (Job.isStill_ofAttempt _)
  intro document
  apply Job.StopsOnly.stopsFirst
  refine Job.stopsOnly_writeFile (fun _ => by simp [Fault.isRefusal])
    (fun _ => by simp [Fault.isRefusal]) ?_ p
  intro fault h
  simp [fault_of_render h, Fault.isRefusal]

end HintFiles

/-! ### Containers -/

namespace Containers

variable {reader : Reader}

theorem fault_of_numbersText {numbers : List Int} (h : numbersText numbers = .error fault) :
    fault = .longNumber := by
  rw [numbersText] at h
  split at h
  · cases h
  · cases h
    rfl

theorem stopsOnly_addEntries (long : P .longNumber) (container : FilePath)
    (entries : List Archive.Entry) (table : PathTable) :
    (addEntries container entries table).StopsOnly P := by
  induction entries generalizing table with
  | nil => exact Attempt.stopsOnly_pure _
  | cons e entries ih =>
    rw [addEntries]
    apply Attempt.StopsOnly.bind
    · apply Attempt.stopsOnly_ofExcept
      intro fault h
      rwa [fault_of_numbersText h]
    · exact fun _ => (Attempt.stopsOnly_tell _).bind fun _ => ih _

/-- A container is not opened because of its path, the file system, a refused rename, or what
its reader says of it. -/
theorem stopsOnly_openContainer (path : ∀ cause, P (.path cause))
    (files : ∀ cause, P (.files cause)) (taken : ∀ p, P (.overwrite p))
    (reads : ∀ t p fault, reader t p = .error fault → P fault)
    (overwrite : Bool) (container : FilePath) :
    (openContainer reader overwrite container).StopsOnly P := by
  have guarded : ∀ p, (Job.guardOverwrite p overwrite).StopsOnly P := by
    intro p
    apply (Job.stopsOnly_ask files _).bind
    intro there
    split
    · exact Job.stopsOnly_throw (taken _)
    · exact Job.stopsOnly_pure _
  have renamed : ∀ legacy, (rename legacy container overwrite).StopsOnly P := by
    intro legacy
    apply (Job.stopsOnly_ask files _).bind
    intro there
    split
    · exact (guarded _).bind fun _ => (Job.stopsOnly_change files _).bind fun _ =>
        Job.stopsOnly_pure _
    · exact Job.stopsOnly_pure _
  have read : ∀ w : Workspace,
      (Job.ofExcept (reader w.files container)).StopsOnly P :=
    fun w => Job.stopsOnly_ofExcept (reads w.files container)
  apply (Job.stopsOnly_path path _).bind
  intro legacy
  apply (renamed legacy).bind
  intro moved
  cases moved
  · exact Job.stopsOnly_get_bind read
  · exact (Job.stopsOnly_tell _).bind fun _ => Job.stopsOnly_get_bind read

/-- Faults of the file system's family are reported and contained, refused renames among them. -/
theorem stopsOnly_addContainer (path : ∀ cause, P (.path cause)) (long : P .longNumber)
    (files : ∀ cause, P (.files cause)) (reads : ∀ t p fault, reader t p = .error fault → P fault)
    (overwrite : Bool) (index : Index) (container : FilePath) :
    (addContainer reader overwrite index container).StopsOnly P := by
  -- a refused rename belongs to the file system's family, which never leaves this step
  have opened : (openContainer reader overwrite container).StopsOnly
      fun fault => P fault ∨ fault.family = .system :=
    stopsOnly_openContainer (fun cause => .inl (path cause)) (fun cause => .inl (files cause))
      (fun _ => .inr rfl) (fun t p fault h => .inl (reads t p fault h)) overwrite container
  rw [addContainer]
  refine opened.outcome_bind ?_ ?_
  · intro entries
    exact (Job.stopsOnly_ofAttempt (stopsOnly_addEntries long _ _ _)).bind fun _ =>
      Job.stopsOnly_pure _
  · intro fault kind
    dsimp only
    split
    · exact (Job.stopsOnly_tell _).bind fun _ => Job.stopsOnly_pure _
    · next other => exact Job.stopsOnly_throw (kind.resolve_right other)

theorem stopsOnly_index (path : ∀ cause, P (.path cause)) (long : P .longNumber)
    (search : ∀ cause, P (.search cause)) (files : ∀ cause, P (.files cause))
    (reads : ∀ t p fault, reader t p = .error fault → P fault)
    (directory : FilePath) (pattern : String) (overwrite : Bool) :
    (index reader directory pattern overwrite).StopsOnly P := by
  apply Job.stopsOnly_get_bind
  intro w
  apply Job.StopsOnly.bind
  · apply Job.stopsOnly_ofExcept
    intro fault h
    obtain ⟨cause, rfl⟩ | ⟨p, rfl⟩ := fault_of_find h
    · exact search cause
    · exact files _
  · intro found
    refine Job.isStepwise_stopsOnly.foldlM (fun i c _ => ?_) ({} : Index)
    exact stopsOnly_addContainer path long files reads overwrite i c

/-- A zip archive is never a reason to refuse a request. -/
theorem isRefusal_of_zipReader {t : FileTree} {p : FilePath}
    (h : zipReader t p = .error fault) : fault.isRefusal = false := by
  obtain unread | ⟨bytes, -, unlisted⟩ := exists_of_bind_error h
  · obtain ⟨cause, -, rfl⟩ := exists_of_mapError unread
    rfl
  · obtain ⟨cause, -, rfl⟩ := exists_of_mapError unlisted
    rfl

end Containers

/-! ### Logs -/

namespace Log

variable {place : Record → Attempt (Option Record)}

theorem fault_of_line {bundle : String} {offset size : Int}
    (h : line bundle offset size = .error fault) : fault = .longNumber := by
  unfold line at h
  split at h
  · cases h
  · cases h
    rfl

theorem stopsOnly_renderGroup (long : P .longNumber) (places : ∀ r, (place r).StopsOnly P)
    (rs : List Record) : (renderGroup place rs).StopsOnly P := by
  induction rs with
  | nil => exact Attempt.stopsOnly_pure _
  | cons r rs ih =>
    apply (places r).bind
    intro placed?
    cases placed? with
    | none => exact ih
    | some placed =>
      apply Attempt.StopsOnly.bind
      · apply Attempt.stopsOnly_ofExcept
        intro fault h
        rwa [fault_of_line h]
      · exact fun _ => ih.bind fun _ => Attempt.stopsOnly_pure _

theorem stopsOnly_renderEntries (long : P .longNumber) (places : ∀ r, (place r).StopsOnly P) :
    ∀ groups, (renderEntries place groups).StopsOnly P
  | [] => Attempt.stopsOnly_pure _
  | [(_, group)] => stopsOnly_renderGroup long places group
  | (_, group) :: next :: groups =>
    (stopsOnly_renderGroup long places group).bind fun _ =>
      (stopsOnly_renderEntries long places (next :: groups)).bind fun _ =>
        Attempt.stopsOnly_pure _

theorem stopsOnly_placeIn (long : P .longNumber) (index : PathTable) (r : Record) :
    (placeIn index r).StopsOnly P := by
  rw [placeIn]
  split
  · exact (Attempt.stopsOnly_tell _).bind fun _ => Attempt.stopsOnly_pure _
  · split
    · exact (Attempt.stopsOnly_tell _).bind fun _ => Attempt.stopsOnly_pure _
    · exact Attempt.stopsOnly_throw long

end Log

theorem Bundles.stopsOnly_log (long : P .longNumber) (empty : P .emptyLog)
    (records index : PathTable) : (Bundles.log records index).StopsOnly P := by
  unfold Bundles.log Log.nonemptyProfiling
  dsimp only
  split
  · exact Attempt.stopsOnly_throw empty
  · exact Log.stopsOnly_renderEntries long (Log.stopsOnly_placeIn long _) _

/-! ### The four jobs -/

theorem SeedList.stopsFirst_update (catalogs : CatalogSet) (platforms : List String)
    (list : FilePath) (edit : SeedList.Edit) :
    (SeedList.update catalogs platforms list edit).StopsFirst (·.isRefusal = true) := by
  apply Job.StopsFirst.bind (Job.isStill_ofExcept _)
  intro file
  apply Job.StopsFirst.bind (Job.isStill_inspect _)
  intro before
  apply Job.StopsFirst.bind (Job.isStill_ofAttempt _)
  intro after
  apply Job.StopsFirst.bind (Job.isStill_tell _)
  intro _
  exact (HintFiles.stopsFirst_write _ file).bind_stopsOnly fun _ => Job.stopsOnly_tell _

theorem Planning.stopsFirst_write (s : Store) (list : FilePath) (overwrite : Bool)
    (platform : String) :
    (Planning.write s list overwrite platform).StopsFirst (·.isRefusal = true) := by
  apply Job.StopsFirst.bind (Job.isStill_ofExcept _)
  intro file
  apply Job.StopsFirst.bind (Job.isStill_guardOverwrite _ _)
  intro _
  apply Job.StopsFirst.bind (Job.isStill_tell _)
  intro _
  exact (HintFiles.stopsFirst_write _ file).bind_stopsOnly fun _ => Job.stopsOnly_tell _

theorem Planning.stopsFirst_make (catalogs : CatalogSet) (input : PlanInput)
    (output : Planning.Output) (platform : String) :
    (Planning.make catalogs input output platform).StopsFirst (·.isRefusal = true) := by
  apply Job.StopsFirst.bind (Job.isStill_ofExcept _)
  intro c
  apply Job.StopsFirst.bind (Job.isStill_ofAttempt _)
  intro s
  have printed : (Job.ofAttempt (Plan.print platform s)).IsStill := Job.isStill_ofAttempt _
  cases listed : output.list with
  | none =>
    have nothing : Job.IsStill (pure ()) := Job.isStill_pure _
    dsimp only
    split
    · exact (printed.bind fun _ => nothing).stopsFirst
    · exact nothing.stopsFirst
  | some list =>
    have written := Planning.stopsFirst_write s list output.overwrite platform
    dsimp only
    split
    · exact Job.StopsFirst.bind printed fun _ => written
    · exact written

theorem Merging.stopsFirst_run (files : List FilePath) (out : FilePath) (overwrite : Bool)
    (override : Int) :
    (Merging.run files out overwrite override).StopsFirst (·.isRefusal = true) := by
  rw [Merging.run]
  split
  · exact (Job.isStill_throw _).stopsFirst
  · apply Job.StopsFirst.bind (Job.isStill_guardOverwrite _ _)
    intro _
    apply Job.StopsFirst.bind (Job.isStill_inspect _)
    intro s
    apply Job.StopsFirst.bind (Job.isStill_ofAttempt _)
    intro items
    apply Job.StopsOnly.stopsFirst
    apply Job.StopsOnly.bind
    · exact Job.stopsOnly_writeFile_ok (fun _ => by simp [Fault.isRefusal])
        (fun _ => by simp [Fault.isRefusal]) out
    · exact fun _ => (Job.stopsOnly_tell _).bind fun _ => Job.stopsOnly_pure _

/-- Containers are renamed only after the last step that can refuse a log, unless the reader of
containers has refusals of its own. -/
theorem Bundles.stopsFirst_make (reader : Containers.Reader) (list bundle : FilePath)
    (overwrite : Bool) (platform : String) :
    (Bundles.make reader list bundle overwrite platform).StopsFirst fun fault =>
      fault.isRefusal = true ∧ ∀ t p, reader t p ≠ .error fault := by
  apply Job.StopsFirst.bind (Job.isStill_ofExcept _)
  intro plan
  apply Job.StopsFirst.bind (Job.isStill_ofExcept _)
  intro bundle
  apply Job.StopsFirst.bind (Job.isStill_ofExcept _)
  intro file
  apply Job.StopsFirst.bind (Job.isStill_guardOverwrite _ _)
  intro _
  apply Job.StopsFirst.bind (Job.isStill_inspect _)
  intro records
  apply Job.StopsFirst.bind (Job.isStill_tell _)
  intro _
  -- from here on files are touched, and no fault is a refusal but the reader's own
  apply Job.StopsOnly.stopsFirst
  apply Job.StopsOnly.bind
  · apply Containers.stopsOnly_index
    · simp [Fault.isRefusal]
    · simp [Fault.isRefusal]
    · simp [Fault.isRefusal]
    · simp [Fault.isRefusal]
    · exact fun t p fault own other => other.2 t p own
  · intro index
    apply Job.StopsOnly.bind
    · exact Job.stopsOnly_ofAttempt (Bundles.stopsOnly_log (by simp [Fault.isRefusal])
        (by simp [Fault.isRefusal]) _ _)
    · intro items
      apply Job.StopsOnly.bind
      · exact Job.stopsOnly_writeFile_ok (by simp [Fault.isRefusal]) (by simp [Fault.isRefusal])
          file
      · exact fun _ => Job.stopsOnly_tell _

/-- Where editing a list of seeds, merging hint files, making the plan of a platform or making the
log of its bundle is refused, no file has been touched. A reader of containers that has refusals
of its own is the only exception; the one of zip archives has none. This is said of the
files in a tree, which has no links and out of which no path leads: at one with a root nothing is
found or written, and a step up from the working directory stays there. -/
theorem refusal_leaves_files {w w' : Workspace} (refused : fault.isRefusal = true) :
    (∀ catalogs platforms list edit,
      (SeedList.update catalogs platforms list edit).run w = (.error fault, w') →
        w'.files = w.files) ∧
    (∀ files out overwrite override,
      (Merging.run files out overwrite override).run w = (.error fault, w') →
        w'.files = w.files) ∧
    (∀ catalogs input output platform,
      (Planning.make catalogs input output platform).run w = (.error fault, w') →
        w'.files = w.files) ∧
    (∀ list bundle overwrite platform,
      (Bundles.make Containers.zipReader list bundle overwrite platform).run w =
        (.error fault, w') → w'.files = w.files) ∧
    ∀ reader list bundle overwrite platform,
      (Bundles.make reader list bundle overwrite platform).run w = (.error fault, w') →
        w'.files = w.files ∨ ∃ t p, reader t p = .error fault := by
  refine ⟨?_, ?_, ?_, ?_, ?_⟩
  · intro catalogs platforms list edit stopped
    exact SeedList.stopsFirst_update catalogs platforms list edit w fault w' stopped refused
  · intro files out overwrite override stopped
    exact Merging.stopsFirst_run files out overwrite override w fault w' stopped refused
  · intro catalogs input output platform stopped
    exact Planning.stopsFirst_make catalogs input output platform w fault w' stopped refused
  · intro list bundle overwrite platform stopped
    apply Bundles.stopsFirst_make _ list bundle overwrite platform w fault w' stopped
    refine ⟨refused, fun t p read => ?_⟩
    rw [Containers.isRefusal_of_zipReader read] at refused
    cases refused
  · intro reader list bundle overwrite platform stopped
    by_cases own : ∃ t p, reader t p = .error fault
    · exact .inr own
    · apply Or.inl
      apply Bundles.stopsFirst_make reader list bundle overwrite platform w fault w' stopped
      exact ⟨refused, fun t p read => own ⟨t, p, read⟩⟩

/-- A workspace with a hint file that cannot be taken, and with a log. -/
def unfitWorkspace : Workspace where
  files :=
    { nodes :=
        { entries := [(["s.seed.assethints"], .file (Utf8.ofString "[]")), (["x.log"], .file [])]
          nodup := by simp } }

/-- Catalogs that know one platform. -/
def emptyCatalogs : CatalogSet where
  catalogs := ⟨[("pc", .empty)], by simp⟩

/-- Each of the four jobs is refused, for a reason of its own. -/
theorem refusal_leaves_files_fourJobs :
    ((SeedList.update emptyCatalogs ["pc"] ⟨"", ["s"]⟩ {}).run unfitWorkspace).1 =
        .error (.hints { path := "s.seed.assethints", cause := .noObject }) ∧
      ((SeedList.update emptyCatalogs ["pc"] ⟨"", ["s"]⟩ {}).run unfitWorkspace).2.files =
        unfitWorkspace.files ∧
    ((Merging.run [⟨"", ["s.seed.assethints"]⟩] ⟨"", ["x.log"]⟩ false 0).run unfitWorkspace).1 =
        .error (.overwrite "x.log") ∧
      ((Merging.run [⟨"", ["s.seed.assethints"]⟩] ⟨"", ["x.log"]⟩ false 0).run
        unfitWorkspace).2.files = unfitWorkspace.files ∧
    ((Planning.make emptyCatalogs {} { list := some ⟨"", ["a_linux"]⟩ } "pc").run
        unfitWorkspace).1 = .error (.input (.foreignFile "a_linux" "pc")) ∧
      ((Planning.make emptyCatalogs {} { list := some ⟨"", ["a_linux"]⟩ } "pc").run
        unfitWorkspace).2.files = unfitWorkspace.files ∧
    ((Bundles.make Containers.zipReader ⟨"", ["s_linux"]⟩ ⟨"", ["b"]⟩ false "pc").run
        unfitWorkspace).1 = .error (.input (.foreignFile "s_linux" "pc")) ∧
      ((Bundles.make Containers.zipReader ⟨"", ["s_linux"]⟩ ⟨"", ["b"]⟩ false "pc").run
        unfitWorkspace).2.files = unfitWorkspace.files := by
  have seeds : ((SeedList.update emptyCatalogs ["pc"] ⟨"", ["s"]⟩ {}).run unfitWorkspace).1 =
      .error (.hints { path := "s.seed.assethints", cause := .noObject }) := by
    decide +kernel
  have merging : ((Merging.run [⟨"", ["s.seed.assethints"]⟩] ⟨"", ["x.log"]⟩ false 0).run
      unfitWorkspace).1 = .error (.overwrite "x.log") := by
    decide +kernel
  have plan : ((Planning.make emptyCatalogs {} { list := some ⟨"", ["a_linux"]⟩ } "pc").run
      unfitWorkspace).1 = .error (.input (.foreignFile "a_linux" "pc")) := by
    decide +kernel
  have log : ((Bundles.make Containers.zipReader ⟨"", ["s_linux"]⟩ ⟨"", ["b"]⟩ false "pc").run
      unfitWorkspace).1 = .error (.input (.foreignFile "s_linux" "pc")) := by
    decide +kernel
  refine ⟨seeds, ?_, merging, ?_, plan, ?_, log, ?_⟩
  · exact (refusal_leaves_files rfl).1 _ _ _ _ (Prod.ext seeds rfl)
  · exact (refusal_leaves_files rfl).2.1 _ _ _ _ (Prod.ext merging rfl)
  · exact (refusal_leaves_files rfl).2.2.1 _ _ _ _ (Prod.ext plan rfl)
  · exact (refusal_leaves_files rfl).2.2.2.1 _ _ _ _ (Prod.ext log rfl)

end PackPlan
