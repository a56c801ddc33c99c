import PackPlan.Proofs.Archive.Effects
import PackPlan.Proofs.Command.HintFiles
import PackPlan.Proofs.Log.Profile
import PackPlan.Proofs.Plan.Steady

/-!
# The profiling log of a platform

The log of a platform is made of the records of its plan and of the index of its containers.
Where it is written, it has the blocks that these call for, and every asset that is missing is
warned of.

## Main definitions

* `Bundles.Inputs`, `Bundles.Inputs.read` — what a log is made of
* `Workspace.warnings` — the warnings that have been told

## Main results

* `Bundles.exists_of_run_make` — a log that is written is that of its inputs
* `Bundles.isProfile_of_run_make` — it has the blocks that it is to have
* `Bundles.accounts_of_run_make` — every record that counts has a line or a warning
-/

namespace PackPlan

/-! ### Reading a plan -/

namespace Hints

variable {P : Notice → Prop}

/-- Without catalogs nothing is told of an entry. -/
theorem tellsOnly_readItem (path key : String) (pack : Int) (v : Json.Value) :
    (readItem .none path key pack v).TellsOnly P := by
  unfold readItem
  split
  · split
    · exact Attempt.tellsOnly_throw _
    · next assetPath id? _ =>
      dsimp only
      rw [complete_none]
      exact (Attempt.tellsOnly_pure _).bind fun _ => Attempt.tellsOnly_pure _
  · exact Attempt.tellsOnly_throw _

theorem tellsOnly_readPackItems (path : String) (member : String × Json.Value) :
    (readPackItems .none path member).TellsOnly P := by
  unfold readPackItems
  dsimp only
  split
  · exact Attempt.tellsOnly_throw _
  · split
    · exact Attempt.isStepwise_tellsOnly.mapM fun v _ => tellsOnly_readItem _ _ _ v
    · exact Attempt.tellsOnly_throw _

theorem tellsOnly_readDocument (path text : String) :
    (readDocument .none path text).TellsOnly P := by
  unfold readDocument
  split
  · exact Attempt.tellsOnly_throw _
  · exact Attempt.tellsOnly_throw _
  · exact (Attempt.isStepwise_tellsOnly.mapM fun m _ => tellsOnly_readPackItems path m).bind
      fun _ => Attempt.tellsOnly_pure _
  · exact Attempt.tellsOnly_throw _

end Hints

/-- Without catalogs nothing is told of a hint file. -/
theorem HintFiles.tellsOnly_read {P : Notice → Prop} (p : FilePath) (t : FileTree) :
    (HintFiles.read .none p t).TellsOnly P :=
  (Attempt.tellsOnly_ofExcept _).bind fun _ => (Attempt.tellsOnly_ofExcept _).bind fun _ =>
    Hints.tellsOnly_readDocument _ _

/-- The warnings that have been told. -/
def Workspace.warnings (w : Workspace) : List Notice := w.notices.filter (·.isWarning)

namespace Bundles

variable {reader : Containers.Reader} {list bundle : FilePath} {overwrite : Bool}
  {platform : String} {w w' : Workspace}

/-! ### What a log is made of -/

/-- What a log is made of. -/
structure Inputs where
  /-- Where it is to stand. -/
  file : FilePath
  /-- The records of the plan. -/
  records : List Record
  /-- The index of the containers. -/
  index : Containers.Index

/-- The first record of each path of the plan. -/
def Inputs.known (i : Inputs) : PathTable := PathTable.gather [i.records]

/-- What the log of a platform is made of: the records of its plan, and the index of the containers
of its bundle. -/
def Inputs.read (reader : Containers.Reader) (list bundle : FilePath) (overwrite : Bool)
    (platform : String) (w : Workspace) : Except Fault Inputs := do
  let plan ← HintFiles.planFile list platform
  let marked ← bundleFor bundle platform
  let file ← (logFile marked).mapError .path
  let records ← (HintFiles.read .none plan w.files).run.1
  let index ← ((Containers.index reader marked.parent (containerPattern marked) overwrite).run w).1
  return { file, records, index }

/-- A log that is written is that of its inputs, and nothing else is warned of. -/
theorem exists_of_run_make (proper : w.files.IsProper)
    (ran : (make reader list bundle overwrite platform).run w = (.ok (), w')) :
    ∃ i, Inputs.read reader list bundle overwrite platform w = .ok i ∧
      i.index.entries.IsKeyed ∧ ∃ items told told',
      (log i.known i.index.entries).runFrom told = (.ok items, told') ∧
      w'.files.readBytes i.file = .ok (Utf8.ofString (Log.text items)) ∧
      told.filter (·.isWarning) = w.warnings ∧ w'.warnings = told'.filter (·.isWarning) := by
  rw [make] at ran
  obtain ⟨plan, planned, ran⟩ := Job.exists_of_run_ofExcept_bind ran
  obtain ⟨marked, named, ran⟩ := Job.exists_of_run_ofExcept_bind ran
  obtain ⟨file, placed, ran⟩ := Job.exists_of_run_ofExcept_bind ran
  have ran := Job.run_of_guardOverwrite_bind ran
  obtain ⟨records, told, read, ran⟩ := Job.exists_of_run_inspect_bind ran
  rw [Job.run_bind_ok (Job.run_tell _)] at ran
  obtain ⟨index, mid, indexed, ran⟩ := Job.exists_of_run_bind ran
  obtain ⟨items, told', logged, ran⟩ := Job.exists_of_run_ofAttempt_bind ran
  obtain ⟨_, done, wrote, ran⟩ := Job.exists_of_run_bind ran
  obtain ⟨-, rfl⟩ := Prod.mk.inj ((Job.run_tell _).symm.trans ran)
  obtain ⟨keyed, proper', quiet, answer⟩ := Containers.run_index_facts proper indexed
  have content := Job.readBytes_of_run_writeFile (w := ⟨mid.files, told'⟩) proper' wrote
  have reading : (HintFiles.read .none plan w.files).TellsOnly (·.isWarning = false) :=
    HintFiles.tellsOnly_read plan w.files
  have quiet' := reading.filter_eq w.notices
  have quiet'' := (Job.tellsOnly_writeFile (P := (·.isWarning = false)) file
    (.ok (Log.text items))).filter_eq ⟨mid.files, told'⟩
  rw [read] at quiet'
  rw [wrote] at quiet''
  have answer := answer w.notices
  have records_eq : (HintFiles.read .none plan w.files).run.1 = .ok records := by
    rw [← (HintFiles.isSteady_read _ _ _).runFrom_fst w.notices, read]
  refine ⟨⟨file, records, index⟩, ?_, keyed, items, mid.notices, told', logged, content, ?_, ?_⟩
  · simp only [Inputs.read, planned, named, placed, records_eq, answer, bind, Except.bind]
    rfl
  · rw [quiet, List.filter_append, quiet']
    exact List.append_nil _
  · rw [Workspace.warnings, List.filter_append, quiet'']
    exact List.append_nil _

/-! ### A plan and its container -/

/-- A plan of one asset, and a container that holds it and another one. -/
def plannedBundle : Workspace where
  files :=
    { nodes :=
        { entries := [
            (["a_pc.pak.assethints"], .file (Utf8.ofString
              "\x7b\"0\": [\x7b\"assetHint\": \"x\"\x7d]\x7d")),
            (["s_pc.bpak"], .file Log.gluedNames)]
          nodup := by simp } }

theorem exists_run_plannedBundle : plannedBundle.files.IsProper ∧ ∃ w',
    (make Containers.zipReader ⟨"", ["a"]⟩ ⟨"", ["s"]⟩ false "pc").run plannedBundle =
      (.ok (), w') := by
  have done : ((make Containers.zipReader ⟨"", ["a"]⟩ ⟨"", ["s"]⟩ false "pc").run
      plannedBundle).1.toOption = some () := by decide +kernel
  exact ⟨by decide +kernel, Job.exists_run_of_toOption done⟩

theorem inputs_plannedBundle (i : Inputs)
    (inputs : Inputs.read Containers.zipReader ⟨"", ["a"]⟩ ⟨"", ["s"]⟩ false "pc" plannedBundle =
      .ok i) :
    Log.HeadersFree i.known i.index.entries ∧
      ∃ r ∈ i.records, Log.Counts i.records i.index.entries r := by
  have known : (Inputs.read Containers.zipReader ⟨"", ["a"]⟩ ⟨"", ["s"]⟩ false "pc"
      plannedBundle).toOption.map (fun i => decide (Log.HeadersFree i.known i.index.entries ∧
        ∃ r ∈ i.records, Log.Counts i.records i.index.entries r)) = some true := by
    decide +kernel
  rw [inputs] at known
  exact of_decide_eq_true (Option.some.inj known)

/-! ### Logs that are written -/

/-- The log of a platform has the blocks that its plan and its containers call for, and there is
exactly one warning for each assigned asset that the containers do not have; provided that no header
record has a path that is taken. -/
theorem isProfile_of_run_make (proper : w.files.IsProper)
    (ran : (make reader list bundle overwrite platform).run w = (.ok (), w')) :
    ∃ i, Inputs.read reader list bundle overwrite platform w = .ok i ∧
      i.known.values = PathTable.firsts i.records ∧ i.index.entries.IsKeyed ∧
      (Log.HeadersFree i.known i.index.entries → ∃ blocks,
        w'.files.readBytes i.file = .ok (Utf8.ofString (Log.text (Log.frame blocks))) ∧
        Log.IsProfile i.known i.index.entries blocks ∧
        ∃ warnings, w'.warnings = w.warnings ++ warnings ∧
          warnings.Perm ((i.known.values.filter fun r =>
            r.pack ≠ unassigned && !i.index.entries.contains r.path).map Log.missing)) := by
  obtain ⟨i, inputs, keyed, items, told, told', logged, content, before, after⟩ :=
    exists_of_run_make proper ran
  refine ⟨i, inputs, ?_, keyed, fun free => ?_⟩
  · rw [Inputs.known, PathTable.values_gather, List.flatten_singleton]
  · obtain ⟨blocks, rfl, profile, warnings, told_eq, perm⟩ :=
      Log.isProfile_of_log (PathTable.isKeyed_gather _) free logged
    exact ⟨blocks, content, profile, warnings, by rw [after, told_eq, before], perm⟩

theorem isProfile_of_run_make_plannedBundle : plannedBundle.files.IsProper ∧ ∃ i w',
    (make Containers.zipReader ⟨"", ["a"]⟩ ⟨"", ["s"]⟩ false "pc").run plannedBundle =
      (.ok (), w') ∧
    Inputs.read Containers.zipReader ⟨"", ["a"]⟩ ⟨"", ["s"]⟩ false "pc" plannedBundle = .ok i ∧
    Log.HeadersFree i.known i.index.entries ∧ ∃ blocks,
      w'.files.readBytes i.file = .ok (Utf8.ofString (Log.text (Log.frame blocks))) ∧
      Log.IsProfile i.known i.index.entries blocks := by
  obtain ⟨proper, w', ran⟩ := exists_run_plannedBundle
  obtain ⟨i, inputs, -, -, profile⟩ := isProfile_of_run_make proper ran
  obtain ⟨free, -⟩ := inputs_plannedBundle i inputs
  obtain ⟨blocks, content, isProfile, -⟩ := profile free
  exact ⟨proper, i, w', ran, inputs, free, blocks, content, isProfile⟩

/-- Every record of the plan that counts is accounted for: the log has the line of its place in the
containers, or there is a warning that names it. -/
theorem accounts_of_run_make (proper : w.files.IsProper)
    (ran : (make reader list bundle overwrite platform).run w = (.ok (), w')) :
    ∃ i, Inputs.read reader list bundle overwrite platform w = .ok i ∧ ∃ items,
      w'.files.readBytes i.file = .ok (Utf8.ofString (Log.text items)) ∧
      ∀ r ∈ i.records, Log.Counts i.records i.index.entries r →
        (∃ placed, i.index.entries.get? r.path = some placed ∧
            .record (Log.payloadLine placed) ∈ items) ∨
          Log.missing r ∈ w'.warnings := by
  obtain ⟨i, inputs, -, items, told, told', logged, content, -, after⟩ :=
    exists_of_run_make proper ran
  refine ⟨i, inputs, items, content, fun r _ counts => ?_⟩
  refine (Log.accounts_of_log counts logged).imp_right fun warned => ?_
  rw [after]
  exact List.mem_filter.2 ⟨warned, rfl⟩

theorem accounts_of_run_make_plannedBundle : plannedBundle.files.IsProper ∧ ∃ i w',
    (make Containers.zipReader ⟨"", ["a"]⟩ ⟨"", ["s"]⟩ false "pc").run plannedBundle =
      (.ok (), w') ∧
    Inputs.read Containers.zipReader ⟨"", ["a"]⟩ ⟨"", ["s"]⟩ false "pc" plannedBundle = .ok i ∧
    ∃ r ∈ i.records, Log.Counts i.records i.index.entries r ∧ ∃ items,
      w'.files.readBytes i.file = .ok (Utf8.ofString (Log.text items)) ∧
      ((∃ placed, i.index.entries.get? r.path = some placed ∧
          .record (Log.payloadLine placed) ∈ items) ∨ Log.missing r ∈ w'.warnings) := by
  obtain ⟨proper, w', ran⟩ := exists_run_plannedBundle
  obtain ⟨i, inputs, items, content, accounts⟩ := accounts_of_run_make proper ran
  obtain ⟨-, r, mem, counts⟩ := inputs_plannedBundle i inputs
  exact ⟨proper, i, w', ran, inputs, r, mem, counts, items, content, accounts r mem counts⟩

/-- A plan of two assets of which only the ids are known, and a container without them. -/
def namelessPlan : Workspace where
  files :=
    { nodes :=
        { entries := [
            (["a_pc.pak.assethints"], .file (Utf8.ofString
              ("\x7b\"0\":[" ++
                "\x7b\"guid\":\"00000000000000000000000000000001\",\"subId\":0\x7d," ++
                "\x7b\"guid\":\"00000000000000000000000000000002\",\"subId\":0\x7d" ++
                "]\x7d"))),
            (["s_pc.bpak"], .file (Containers.smallArchive 20))]
          nodup := by simp } }

/-- Of an assigned asset that is in no container and has no path there may be no warning. -/
theorem not_warned_namelessPlan : ∃ i w',
    (make Containers.zipReader ⟨"", ["a"]⟩ ⟨"", ["s"]⟩ false "pc").run namelessPlan =
      (.ok (), w') ∧
    Inputs.read Containers.zipReader ⟨"", ["a"]⟩ ⟨"", ["s"]⟩ false "pc" namelessPlan = .ok i ∧
    ∃ r ∈ i.records, r.pack ≠ unassigned ∧ i.index.entries.get? r.path = none ∧
      Log.missing r ∉ w'.notices := by
  obtain ⟨w', ran, lost⟩ := Job.exists_run_and_of_toOption (a := ()) (P := fun w' =>
    (Inputs.read Containers.zipReader ⟨"", ["a"]⟩ ⟨"", ["s"]⟩ false "pc" namelessPlan).toOption.any
      (fun i => decide (∃ r ∈ i.records, r.pack ≠ unassigned ∧
        i.index.entries.get? r.path = none ∧ Log.missing r ∉ w'.notices)) = true)
    (w := namelessPlan) (m := make Containers.zipReader ⟨"", ["a"]⟩ ⟨"", ["s"]⟩ false "pc")
    (by decide +kernel)
  obtain ⟨i, inputs, unwarned⟩ := (Option.any_eq_true _ _).1 lost
  exact ⟨i, w', ran, eq_ok_of_toOption inputs, of_decide_eq_true unwarned⟩

end Bundles

end PackPlan
