import PackPlan.Command.Bundles
import PackPlan.Command.LogFiles
import PackPlan.Command.Merging
import PackPlan.Proofs.Command.HintFiles
import PackPlan.Proofs.Effects
import PackPlan.Proofs.Log.Framing
import PackPlan.Proofs.Log.ReadBack

/-!
# Log files

Groups of records are rendered as a framed log whichever way their records are placed, unless a
number in it is too long to be written. The lines of records are those with tabs in them, so that
what is told of a log that has been written is how many records it has.

## Main definitions

* `Log.Answers` — a way of placing records that has an answer for each
* `Log.TooLong` — a number of a place is too long to be written
* `Log.Renders`, `LogFiles.Writes` — what comes of the log of groups

## Main results

* `Log.Answers.renders` — groups are rendered as a framed log
* `Log.Places.countP_tab` — as many lines have tabs as there are records
* `Merging.run_eq`, `Bundles.make_eq` — the commands write their logs as logs of groups
* `LogFiles.isFramed_of_write` — the logs of groups, rendered and written
-/

namespace PackPlan

variable {place : Record → Attempt (Option Record)} {find : Record → Option Record}
  {tells : Record → List Notice} {groups : Groups} {group : List Record}
  {items : List Log.Item} {index : PathTable} {p : FilePath} {told told' : List Notice}

/-! ### Places that cannot be written -/

/-- The numbers of the record's place can be written. -/
def Record.PlaceFits (r : Record) : Prop :=
  Numeral.isTooLong r.payloadOffset = false ∧ Numeral.isTooLong r.payloadSize = false

namespace Log

open Attempt

/-- A way of placing records has an answer for each of them, or stops at a place the numbers of
which cannot be written. -/
def Answers (place : Record → Attempt (Option Record)) (find : Record → Option Record)
    (tells : Record → List Notice) : Prop :=
  ∀ r told, (place r).runFrom told = (.ok (find r), told ++ tells r) ∨
    (∃ placed, find r = some placed ∧ ¬placed.PlaceFits) ∧
      (place r).runFrom told = (.error .longNumber, told)

/-- A number in the places of records is too long to be written. -/
def TooLong (find : Record → Option Record) (rs : List Record) : Prop :=
  ∃ r ∈ rs, ∃ placed, find r = some placed ∧ ¬placed.PlaceFits

theorem TooLong.mono {rs rs' : List Record} (long : TooLong find rs)
    (sub : ∀ r ∈ rs, r ∈ rs') : TooLong find rs' :=
  long.imp fun r there => there.imp_left (sub r)

/-- What comes of the log of groups: a framed log, unless a number is too long for it. -/
def Renders (find : Record → Option Record) (groups : Groups) (m : Attempt (List Item)) : Prop :=
  ∀ told, (∃ items told', m.runFrom told = (.ok items, told') ∧ IsFramed find groups items) ∨
    TooLong find (groups.entries.flatMap Prod.snd) ∧
      ∃ told', m.runFrom told = (.error .longNumber, told')

theorem line_eq_error {placed : Record} {fault : Fault}
    (h : line placed.bundle placed.payloadOffset placed.payloadSize = .error fault) :
    fault = .longNumber ∧ ¬placed.PlaceFits := by
  unfold line at h
  split at h
  · cases h
  · next none =>
    refine ⟨(Except.error.inj h).symm, fun fits => ?_⟩
    exact none _ _ (Numeral.decimal?_eq_some fits.1) (Numeral.decimal?_eq_some fits.2)

namespace Answers

theorem places (answers : Answers place find tells) : Places place find tells := by
  intro r told placed told' ran
  rcases answers r told with answer | ⟨-, refusal⟩
  · obtain ⟨yields, rfl⟩ := Prod.mk.inj (ran.symm.trans answer)
    exact ⟨Except.ok.inj yields, rfl⟩
  · cases ran.symm.trans refusal

theorem stopsOnly_renderGroup (answers : Answers place find tells) (group : List Record) :
    (renderGroup place group).StopsOnly fun fault => fault = .longNumber ∧ TooLong find group := by
  induction group with
  | nil => exact stopsOnly_pure _
  | cons r group ih =>
    rw [Log.renderGroup]
    have later := ih.mono fun fault stopped =>
      stopped.imp_right fun long => long.mono fun _ => List.mem_cons_of_mem r
    refine StopsOnly.bind_of_runFrom ?placing fun placed told told' ran => ?placed
    case placing =>
      intro told fault stopped
      rcases answers r told with answer | ⟨⟨placed, found, long⟩, refusal⟩
      · rw [answer] at stopped
        cases stopped
      · rw [refusal] at stopped
        cases stopped
        exact ⟨rfl, r, List.mem_cons_self, placed, found, long⟩
    case placed =>
      obtain ⟨rfl, -⟩ := answers.places r ran
      cases found : find r with
      | none => exact later
      | some placed =>
        refine (stopsOnly_ofExcept fun fault stopped => ?_).bind fun _ =>
          later.bind fun _ => stopsOnly_pure _
        exact (line_eq_error stopped).imp_right fun long =>
          ⟨r, List.mem_cons_self, placed, found, long⟩

theorem stopsOnly_renderEntries (answers : Answers place find tells)
    (entries : List (Int × List Record)) : (renderEntries place entries).StopsOnly
      fun fault => fault = .longNumber ∧ TooLong find (entries.flatMap Prod.snd) := by
  induction entries using Log.renderEntries.induct with
  | case1 => exact stopsOnly_pure _
  | case2 pack group =>
    rw [List.flatMap_singleton]
    exact answers.stopsOnly_renderGroup group
  | case3 pack group entries some ih =>
    rw [Log.renderEntries.eq_3 _ _ _ _ some, List.flatMap_cons]
    have first := (answers.stopsOnly_renderGroup group).mono fun fault stopped =>
      stopped.imp_right fun long => long.mono fun _ =>
        List.mem_append_left (entries.flatMap Prod.snd)
    have later := ih.mono fun fault stopped =>
      stopped.imp_right fun long => long.mono fun _ => List.mem_append_right group
    exact first.bind fun _ => later.bind fun _ => stopsOnly_pure _

/-- Groups are rendered as a framed log, whichever way their records are placed. -/
theorem renders (answers : Answers place find tells) (nonempty : groups.entries ≠ []) :
    Renders find groups (renderGroups place groups) := by
  intro told
  cases ran : (renderGroups place groups).runFrom told with
  | mk result told' =>
    cases result with
    | ok items =>
      obtain ⟨rfl, -⟩ := answers.places.renderGroups ran
      exact .inl ⟨_, _, rfl, isFramed_frame find nonempty⟩
    | error fault =>
      obtain ⟨rfl, long⟩ := answers.stopsOnly_renderEntries groups.ascending.entries told fault
        (congrArg Prod.fst ran)
      have same := (Groups.entries_ascending_perm groups).flatMap_right Prod.snd
      exact .inr ⟨long.mono fun r => same.mem_iff.1, told', rfl⟩

end Answers

theorem answers_placeIn (index : PathTable) :
    Answers (placeIn index) (fun r => index.get? r.path) (placing index) := by
  intro r told
  rw [placeIn, placing]
  dsimp only
  cases found : index.get? r.path with
  | none => exact .inl rfl
  | some placed =>
    dsimp only
    split
    · next offset size first second =>
      rw [← eq_digits first, ← eq_digits second]
      exact .inl rfl
    · next none =>
      refine .inr ⟨⟨placed, rfl, fun fits => ?_⟩, rfl⟩
      exact none _ _ (Numeral.decimal?_eq_some fits.1) (Numeral.decimal?_eq_some fits.2)

theorem answers_sampling :
    Answers (fun r => return some (sampled r)) (fun r => some (sampled r)) fun _ => [] :=
  fun r told => .inl (by rw [List.append_nil]; rfl)

/-! ### Counting lines -/

/-- The lines of records are those with tabs in them. -/
theorem countP_tab (tabs : ∀ text, .record text ∈ items → '\t' ∈ text.toList) :
    (items.map (·.text)).countP (·.toList.contains '\t') = count items := by
  rw [List.countP_map, count]
  refine List.countP_congr fun item mem => ?_
  rcases item with text | _ | _
  · refine iff_of_true ?_ rfl
    rw [Function.comp_apply, Item.text, String.toList_append, List.contains_iff_mem]
    exact List.mem_append_left _ (tabs text mem)
  · exact iff_of_false (by decide) Bool.false_ne_true
  · exact iff_of_false (by decide) Bool.false_ne_true

/-- So are those of a log that has been rendered. -/
theorem Places.countP_tab (places : Places place find tells)
    (ran : (Log.renderGroups place groups).runFrom told = (.ok items, told')) :
    (items.map (·.text)).countP (·.toList.contains '\t') = count items := by
  obtain ⟨rfl, -⟩ := places.renderGroups ran
  refine Log.countP_tab fun text mem => ?_
  obtain ⟨⟨pack, lines⟩, block, line⟩ := record_mem_frame_iff.1 mem
  obtain ⟨group, -, rfl⟩ := mem_blocksOf.1 block
  obtain ⟨r, -, placed⟩ := List.mem_filterMap.1 line
  obtain ⟨placed, -, rfl⟩ := Option.map_eq_some_iff.1 placed
  rw [payloadLine, toList_lineOf]
  exact List.mem_append_right _ List.mem_cons_self

end Log

/-! ### Writing logs -/

namespace LogFiles

theorem writeSampling_eq (groups : Groups) (p : FilePath) :
    writeSampling groups p = do
      let items ← Job.ofAttempt (Log.sampling groups)
      Job.writeFile p (.ok (Log.text items))
      return Log.count items :=
  Job.ofAttempt_bind_congr fun items told told' ran => by
    rw [write, Log.places_sampling.countP_tab ran]

theorem writeProfiling_eq (index : PathTable) (groups : Groups) (p : FilePath) :
    writeProfiling index groups p = do
      let items ← Job.ofAttempt (Log.nonemptyProfiling index groups)
      Job.writeFile p (.ok (Log.text items))
      return Log.count items := by
  refine Job.ofAttempt_bind_congr fun items told told' ran => ?_
  rw [Log.nonemptyProfiling] at ran
  split at ran
  · cases ran
  · rw [write, (Log.places_placeIn index).countP_tab ran]

/-- What comes of writing the log of groups: a framed log in a file, as far as the workspace lets it
be written, and the number of its records; unless a number is too long for it. -/
def Writes (find : Record → Option Record) (groups : Groups) (p : FilePath) (m : Job Nat) : Prop :=
  ∀ w, (∃ items told, Log.IsFramed find groups items ∧ m.run w = (do
      Job.writeFile p (.ok (Log.text items))
      return items.countP Log.Item.isRecord).run { w with notices := told }) ∨
    Log.TooLong find (groups.entries.flatMap Prod.snd) ∧
      ∃ told, m.run w = (.error .longNumber, { w with notices := told })

theorem writes_of_renders {m : Attempt (List Log.Item)}
    (renders : Log.Renders find groups m) (p : FilePath) : Writes find groups p (do
      let items ← Job.ofAttempt m
      Job.writeFile p (.ok (Log.text items))
      return Log.count items) := by
  intro w
  rcases renders w.notices with ⟨items, told, ran, framed⟩ | ⟨long, told, stopped⟩
  · refine .inl ⟨items, told, framed, ?_⟩
    rw [Job.run_bind, Job.run_ofAttempt, ran]
    rfl
  · refine .inr ⟨long, told, ?_⟩
    rw [Job.run_bind, Job.run_ofAttempt, stopped]

/-- Whichever way the records of groups are placed, they are rendered as a framed log; and where
either log is written, what is yielded is the number of its records. Only numbers that are too long
to be written keep a log from being made. -/
theorem isFramed_of_write (nonempty : groups.entries ≠ []) :
    (∀ place find tells, Log.Answers place find tells →
      Log.Renders find groups (Log.renderGroups place groups)) ∧
    (∀ index p, index.entries ≠ [] →
      Writes (fun r => index.get? r.path) groups p (writeProfiling index groups p)) ∧
    ∀ p, Writes (fun r => some (Log.sampled r)) groups p (writeSampling groups p) := by
  refine ⟨fun place find tells answers => answers.renders nonempty, fun index p known => ?_,
    fun p => ?_⟩
  · have here : Log.nonemptyProfiling index groups = Log.profiling index groups := by
      rw [Log.nonemptyProfiling, if_neg]
      simpa using ⟨nonempty, known⟩
    rw [writeProfiling_eq, here]
    exact writes_of_renders ((Log.answers_placeIn index).renders nonempty) p
  · rw [writeSampling_eq]
    exact writes_of_renders (Log.answers_sampling.renders nonempty) p

/-- Three packs, with a record each, that do not come in ascending order. -/
def threePacks : Groups where
  entries := [(3, [{ path := "c", pack := 3 }]), (0, [{ path := "b", pack := 0 }]),
    (-2, [{ path := "a", pack := -2 }])]
  nodup := by decide

/-- The places of two of the records. -/
def twoPlaces : PathTable where
  entries := [("a", { path := "a", bundle := "s.bpak", payloadSize := 7 }),
    ("b", { path := "b", bundle := "s.bpak", payloadOffset := 7 })]
  nodup := by decide

theorem not_tooLong {rs : List Record}
    (small : ∀ r ∈ rs.filterMap find, r.payloadOffset.natAbs < 10 ∧ r.payloadSize.natAbs < 10) :
    ¬Log.TooLong find rs := by
  rintro ⟨r, mem, placed, found, long⟩
  obtain ⟨offset, size⟩ := small placed (List.mem_filterMap.2 ⟨r, mem, found⟩)
  exact long ⟨Numeral.isTooLong_eq_false 1 (by decide) offset,
    Numeral.isTooLong_eq_false 1 (by decide) size⟩

/-- Where there is nothing yet, the number of records is what writing a log yields. -/
theorem Writes.exists_run {m : Job Nat} (writes : Writes find groups ⟨"", ["x.log"]⟩ m)
    (short : ¬Log.TooLong find (groups.entries.flatMap Prod.snd)) :
    ∃ items w, Log.IsFramed find groups items ∧
      m.run ⟨.empty, []⟩ = (.ok (items.countP Log.Item.isRecord), w) := by
  obtain ⟨items, told, framed, ran⟩ := (writes ⟨.empty, []⟩).resolve_right fun long => short long.1
  obtain ⟨w, wrote⟩ : ∃ w, (Job.writeFile ⟨"", ["x.log"]⟩ (.ok (Log.text items))).run
      ⟨.empty, told⟩ = (.ok (), w) :=
    ⟨_, Job.run_writeFile (w := ⟨.empty, told⟩) (FileTree.makeDirs_parent_of_name _) rfl rfl rfl⟩
  exact ⟨items, w, framed, ran.trans (Job.run_bind_ok wrote)⟩

/-- They are rendered with two separators and a marker, the record of pack zero being left out as
it has no place, and either log of them can be written. -/
theorem isFramed_of_write_threePacks :
    (∃ items told, (Log.renderGroups (fun r => return if r.pack = 0 then none else some r)
        threePacks).runFrom [] = (.ok items, told) ∧
      items.count .separator = 2 ∧ .marker ∈ items) ∧
    (∃ items w, Log.IsFramed (fun r => twoPlaces.get? r.path) threePacks items ∧
      (writeProfiling twoPlaces threePacks ⟨"", ["x.log"]⟩).run ⟨.empty, []⟩ =
        (.ok (items.countP Log.Item.isRecord), w)) ∧
    ∃ items w, Log.IsFramed (fun r => some (Log.sampled r)) threePacks items ∧
      (writeSampling threePacks ⟨"", ["x.log"]⟩).run ⟨.empty, []⟩ =
        (.ok (items.countP Log.Item.isRecord), w) := by
  have nonempty : threePacks.entries ≠ [] := by decide
  obtain ⟨renders, profiling, sampling⟩ := isFramed_of_write nonempty
  have answers : Log.Answers (fun r => return if r.pack = 0 then none else some r)
      (fun r => if r.pack = 0 then none else some r) fun _ => [] :=
    fun r told => .inl (by rw [List.append_nil]; rfl)
  refine ⟨?rendered, (profiling twoPlaces _ (by decide)).exists_run (not_tooLong (by decide)),
    (sampling _).exists_run (not_tooLong (by decide))⟩
  obtain ⟨items, told, ran, framed⟩ := (renders _ _ _ answers []).resolve_right
    fun long => not_tooLong (by decide) long.1
  obtain ⟨before, after, rfl, -⟩ := framed.marked (by decide) (by decide)
  exact ⟨_, told, ran, Nat.succ_injective framed.separators,
    List.mem_append_right _ (List.mem_cons_of_mem _ List.mem_cons_self)⟩

end LogFiles

/-- Hint files are merged into a sampling log that is written as one of groups. -/
theorem Merging.run_eq (files : List FilePath) (out : FilePath) (overwrite : Bool)
    (override : Int) : Merging.run files out overwrite override = do
      if files.isEmpty then throw (.input .noHintFiles)
      Job.guardOverwrite out overwrite
      let s ← Job.inspect fun t => Merging.gather t files .empty
      let merged := (s.overridePacks override none).1
      let entries ← LogFiles.writeSampling (Groups.ofRecords merged.records) out
      Job.tell (.info s!"wrote {out} ({entries} entries)")
      return entries := by
  simp only [Merging.run, LogFiles.writeSampling_eq, bind_assoc, pure_bind]

/-- The log of a platform is written as one of groups. -/
theorem Bundles.make_eq (reader : Containers.Reader) (list bundle : FilePath) (overwrite : Bool)
    (platform : String) : Bundles.make reader list bundle overwrite platform = (do
      let plan ← Job.ofExcept (HintFiles.planFile list platform)
      let bundle ← Job.ofExcept (bundleFor bundle platform)
      let file ← Job.path (logFile bundle)
      Job.guardOverwrite file overwrite
      let records ← Job.inspect (HintFiles.read .none plan)
      Job.tell (.info s!"creating profiling log ( {file} )...")
      let index ← Containers.index reader bundle.parent (containerPattern bundle) overwrite
      let known := PathTable.gather [records]
      let (grown, promoted) := Log.promote known.contains index.entries
      let groups := Log.mergeHeaders (Groups.ofRecords known.values) promoted
      let entries ← LogFiles.writeProfiling grown groups file
      Job.tell
        (.info s!"wrote {file} ({entries} entries, {index.containers.length} containers)")) := by
  simp only [Bundles.make, Bundles.log, LogFiles.writeProfiling_eq, bind_assoc, pure_bind]

end PackPlan
