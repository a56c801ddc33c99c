import PackPlan.Command.Merging
import PackPlan.Proofs.Command.HintFiles
import PackPlan.Proofs.Log.ReadBack
import PackPlan.Proofs.Plan.Steady

/-!
# The sampling log of hint files

The sampling log of hint files names their records pack by pack, one line for each record that has
a pack. It is read back exactly if no name has a tab or a line end in it; nothing keeps a path of a
hint file from having one.

## Main definitions

* `Merging.merged` — the records that hint files come down to
* `Merging.sampledLog` — the items of their log

## Main results

* `Merging.count_sampledLog` — there is a line for each record that has a pack
* `Merging.readsBack_sampledLog_iff` — when their log is read back
* `Merging.readsBack_of_run` — the log that is written
-/

namespace PackPlan.Merging

variable {files : List FilePath} {out : FilePath} {overwrite : Bool} {override : Int}
  {w w' : Workspace} {count : Nat} {records : List Record}

/-! ### What a log is made of -/

/-- The records that hint files come down to. -/
def merged (files : List FilePath) (override : Int) (t : FileTree) :
    Except Fault (List Record) := do
  let s ← (gather t files .empty).run.1
  return (s.overridePacks override none).1.records

theorem isSteady_gather (t : FileTree) (files : List FilePath) (s : Store) :
    (gather t files s).IsSteady := by
  induction files generalizing s with
  | nil => exact Attempt.isSteady_pure _
  | cons file files ih =>
    exact (HintFiles.isSteady_read _ _ _).bind fun _ =>
      (Attempt.isSteady_ofExcept _).bind fun s => ih s

/-! ### What it consists of -/

/-- The items of the log of records: the lines of those that have a pack, pack by pack. -/
def sampledLog (records : List Record) : List Log.Item :=
  Log.frame (Log.blocksOf (fun r => some (Log.sampled r)) (Groups.ofRecords records))

theorem blockOf_sampled (group : List Record) :
    Log.blockOf (fun r => some (Log.sampled r)) group =
      group.map fun r => Log.payloadLine (Log.sampled r) := by
  rw [Log.blockOf, ← List.filterMap_eq_map]
  rfl

theorem record_mem_sampledLog_iff {text : String} : .record text ∈ sampledLog records ↔
    ∃ r ∈ records, r.pack ≠ unassigned ∧ text = Log.payloadLine (Log.sampled r) := by
  rw [sampledLog, Log.record_mem_frame_iff]
  constructor
  · rintro ⟨⟨pack, lines⟩, block, line⟩
    obtain ⟨group, found, rfl⟩ := Log.mem_blocksOf.1 block
    rw [blockOf_sampled, List.mem_map] at line
    obtain ⟨r, member, rfl⟩ := line
    have kept := (Groups.exists_mem_ofRecords_iff.1
      ⟨group, Table.get?_eq_some.1 found, member⟩).1
    rw [Groups.mem_kept_false] at kept
    exact ⟨r, kept.1, kept.2, rfl⟩
  · rintro ⟨r, mem, assigned, rfl⟩
    obtain ⟨group, entry, member⟩ := Groups.exists_mem_ofRecords_iff.2
      ⟨Groups.mem_kept_false.2 ⟨mem, assigned⟩, rfl⟩
    refine ⟨(r.pack, _), Log.mem_blocksOf.2 ⟨group, Table.get?_eq_some.2 entry, rfl⟩, ?_⟩
    rw [blockOf_sampled]
    exact List.mem_map_of_mem member

/-- There is a line for each record that has a pack. -/
theorem count_sampledLog (records : List Record) :
    Log.count (sampledLog records) = (Groups.kept false records).length := by
  have lines : (Log.blocksOf (fun r => some (Log.sampled r)) (Groups.ofRecords records)).flatMap
      Prod.snd = ((Groups.ofRecords records).ascending.entries.flatMap Prod.snd).map
        fun r => Log.payloadLine (Log.sampled r) := by
    rw [Log.blocksOf, List.flatMap_map, List.map_flatMap]
    exact List.flatMap_congr fun e _ => blockOf_sampled e.2
  have packed := ((Groups.entries_ascending_perm _).flatMap_right Prod.snd).trans
    (Groups.perm_ofRecords records false)
  rw [sampledLog, Log.count_frame, lines, List.length_map, packed.length_eq]

/-- The log of records is read back exactly if no name in it has a tab or a line end in it. -/
theorem readsBack_sampledLog_iff (records : List Record) :
    Log.ReadsBack (sampledLog records) (Log.text (sampledLog records)) ↔
      ∀ r ∈ records, r.pack ≠ unassigned →
        '\t' ∉ (Log.sampleName r).toList ∧ '\n' ∉ (Log.sampleName r).toList := by
  have line : ∀ r : Record, Log.IsRecordLine (Log.payloadLine (Log.sampled r)).toList ∧
      '\n' ∉ (Log.payloadLine (Log.sampled r)).toList ↔
        '\t' ∉ (Log.sampleName r).toList ∧ '\n' ∉ (Log.sampleName r).toList := fun r =>
    and_congr Log.isRecordLine_lineOf_iff (not_congr Log.newline_mem_lineOf_iff)
  rw [Log.readsBack_text_iff]
  constructor
  · intro each r mem assigned
    exact (line r).1 (each _ (record_mem_sampledLog_iff.2 ⟨r, mem, assigned, rfl⟩))
  · intro plain text mem
    obtain ⟨r, member, assigned, rfl⟩ := record_mem_sampledLog_iff.1 mem
    exact (line r).2 (plain r member assigned)

/-! ### Logs that are written -/

/-- The log of hint files has a line for each record that has a pack, and is read back exactly if
no name of these has a tab or a line end in it. -/
theorem readsBack_of_run (proper : w.files.IsProper)
    (ran : (run files out overwrite override).run w = (.ok count, w')) :
    ∃ records, merged files override w.files = .ok records ∧
      w'.files.readBytes out = .ok (Utf8.ofString (Log.text (sampledLog records))) ∧
      count = Log.count (sampledLog records) ∧
      count = (Groups.kept false records).length ∧
      (Log.ReadsBack (sampledLog records) (Log.text (sampledLog records)) ↔
        ∀ r ∈ records, r.pack ≠ unassigned →
          '\t' ∉ (Log.sampleName r).toList ∧ '\n' ∉ (Log.sampleName r).toList) := by
  rw [run] at ran
  split at ran
  · cases ran
  have ran := Job.run_of_guardOverwrite_bind ran
  obtain ⟨s, told, gathered, ran⟩ := Job.exists_of_run_inspect_bind ran
  obtain ⟨items, told', sampled, ran⟩ := Job.exists_of_run_ofAttempt_bind ran
  obtain ⟨_, done, wrote, ran⟩ := Job.exists_of_run_bind ran
  rw [Job.run_bind_ok (Job.run_tell _)] at ran
  obtain ⟨counted, rfl⟩ := Prod.mk.inj ran
  obtain ⟨rfl, -⟩ := Log.places_sampling.renderGroups sampled
  have content := Job.readBytes_of_run_writeFile (w := ⟨w.files, told'⟩) proper wrote
  have gathers : (gather w.files files .empty).run.1 = .ok s := by
    rw [← (isSteady_gather _ _ _).runFrom_fst w.notices, gathered]
  refine ⟨(s.overridePacks override none).1.records, ?_, content, ?_, ?_,
    readsBack_sampledLog_iff _⟩
  · rw [merged, gathers]
    rfl
  · exact (Except.ok.inj counted).symm
  · rw [← count_sampledLog]
    exact (Except.ok.inj counted).symm

/-- A hint file of one asset with the given path, as it stands in a text. -/
def hinted (path : String) : Workspace where
  files :=
    { nodes :=
        { entries := [(["a.assethints"], .file (Utf8.ofString
            ("\x7b\"0\": [\x7b\"assetHint\": \"" ++ path ++ "\"\x7d]\x7d")))]
          nodup := by simp } }

theorem readsBack_of_run_hinted : ∃ w' records,
    (run [⟨"", ["a.assethints"]⟩] ⟨"", ["x.log"]⟩ false unassigned).run (hinted "a b") =
      (.ok 1, w') ∧
    merged [⟨"", ["a.assethints"]⟩] unassigned (hinted "a b").files = .ok records ∧
    w'.files.readBytes ⟨"", ["x.log"]⟩ = .ok (Utf8.ofString (Log.text (sampledLog records))) ∧
    Log.ReadsBack (sampledLog records) (Log.text (sampledLog records)) := by
  have plain : (merged [⟨"", ["a.assethints"]⟩] unassigned (hinted "a b").files).toOption.map
      (fun records => decide (∀ r ∈ records, r.pack ≠ unassigned →
        '\t' ∉ (Log.sampleName r).toList ∧ '\n' ∉ (Log.sampleName r).toList)) = some true := by
    decide +kernel
  have done : ((run [⟨"", ["a.assethints"]⟩] ⟨"", ["x.log"]⟩ false unassigned).run
      (hinted "a b")).1.toOption = some 1 := by decide +kernel
  obtain ⟨w', ran⟩ := Job.exists_run_of_toOption done
  obtain ⟨records, merges, content, -, -, back⟩ := readsBack_of_run (by decide +kernel) ran
  rw [merges] at plain
  exact ⟨w', records, ran, merges, content, back.2 (of_decide_eq_true (Option.some.inj plain))⟩

/-- The line of an asset may have six fields: a tab may stand in a path. -/
theorem six_fields_hinted : ∃ w' text,
    (run [⟨"", ["a.assethints"]⟩] ⟨"", ["x.log"]⟩ false unassigned).run (hinted "a\\tb") =
      (.ok 1, w') ∧
    w'.files.readBytes ⟨"", ["x.log"]⟩ = .ok (Utf8.ofString text) ∧
    (Text.splitAt '\n' text.toList).map (fun line => (Text.splitAt '\t' line).length) =
      [6, 1] := by
  obtain ⟨w', ran, content⟩ := Job.exists_run_and_of_toOption (a := 1) (P := fun w' =>
    (w'.files.readBytes ⟨"", ["x.log"]⟩).toOption =
      some (Utf8.ofString "a\tb\t0\t0\ti-read \t000000000000000000\n"))
    (w := hinted "a\\tb")
    (m := run [⟨"", ["a.assethints"]⟩] ⟨"", ["x.log"]⟩ false unassigned) (by decide +kernel)
  exact ⟨w', _, ran, eq_ok_of_toOption content, by decide⟩

end PackPlan.Merging
