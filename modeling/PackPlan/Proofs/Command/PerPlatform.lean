import PackPlan.Command.PerPlatform
import PackPlan.Proofs.Steady

/-!
# Tasks for several platforms

A task is tried for each platform after the other, and what came of it is reported at the end. A
platform whose task fails at once adds its complaint to the report and is of no consequence to
the others, wherever it stands among them.

## Main definitions

* `PerPlatform.tried` — what comes of a task for each platform, and the workspace after all
* `PerPlatform.complaint` — what is told of a platform that failed
* `PerPlatform.complaint?` — what is told of an outcome, if anything
* `PerPlatform.IsReported` — what comes of a run, given the outcomes of its tasks

## Main results

* `PerPlatform.run_outcomes` — the outcomes of tasks, for platforms that are named once
* `PerPlatform.runFrom_report`, `PerPlatform.recoverable_of_report` — the report of outcomes
* `PerPlatform.run_isReported` — every task is run once, and what the run comes to
* `PerPlatform.tried_filter`, `PerPlatform.run_filter` — some platforms among others that fail at
  once
-/

namespace PackPlan

namespace Table

variable {κ α : Type} [DecidableEq κ] {t : Table κ α} {k : κ} {xs : List (κ × α)}

theorem entries_insert (fresh : k ∉ t.keys) (v : α) :
    (t.insert k v).entries = t.entries ++ [(k, v)] := by
  have absent := get?_eq_none.2 fresh
  rw [insert, absent, if_neg (by simp), insertNew, dif_pos absent]

theorem entries_foldl_insert (distinct : (t.keys ++ xs.map Prod.fst).Nodup) :
    (xs.foldl (fun t e => t.insert e.1 e.2) t).entries = t.entries ++ xs := by
  induction xs generalizing t with
  | nil => rw [List.foldl_nil, List.append_nil]
  | cons e xs ih =>
    have fresh : e.1 ∉ t.keys := by
      intro mem
      have apart := (List.nodup_append.1 distinct).2.2 e.1 mem e.1
      exact apart (by simp) rfl
    have longer : ((t.insert e.1 e.2).keys ++ xs.map Prod.fst).Nodup := by
      rwa [keys_insert, if_neg fresh, List.append_assoc, List.singleton_append]
    rw [List.foldl_cons, ih longer, entries_insert fresh, List.append_assoc, List.singleton_append]

end Table

namespace PerPlatform

variable {task task' : String → Job Unit} {platforms : List String} {w : Workspace}
  {told : List Notice}

/-- What comes of a task for each platform, and the workspace after all of them. -/
def tried (task : String → Job Unit) :
    List String → Workspace → List (String × Except Fault Unit) × Workspace
  | [], w => ([], w)
  | p :: platforms, w =>
    let (r, w) := (task p).run w
    let (rest, w) := tried task platforms w
    ((p, r) :: rest, w)

theorem map_fst_tried : (tried task platforms w).1.map Prod.fst = platforms := by
  induction platforms generalizing w with
  | nil => rfl
  | cons p platforms ih =>
    rw [tried, List.map_cons, ih]

/-- The outcomes are entered one after the other. -/
theorem run_foldlM (done : Outcomes) :
    (platforms.foldlM (fun done platform =>
        do return done.insert platform (← (task platform).outcome)) done : Job Outcomes).run w =
      (.ok ((tried task platforms w).1.foldl (fun done e => done.insert e.1 e.2) done),
        (tried task platforms w).2) := by
  induction platforms generalizing w done with
  | nil => rfl
  | cons p platforms ih =>
    rw [List.foldlM_cons, Job.run_bind, Job.run_bind, Job.run_outcome]
    exact ih _

/-- Platforms that are named once have one outcome each, in their order. -/
theorem run_outcomes (task : String → Job Unit) (distinct : platforms.Nodup) (w : Workspace) :
    ∃ done : Outcomes, (outcomes task platforms).run w = (.ok done, (tried task platforms w).2) ∧
      done.entries = (tried task platforms w).1 := by
  refine ⟨_, run_foldlM .empty, ?_⟩
  rw [Table.entries_foldl_insert]
  · exact List.nil_append _
  · rwa [Table.keys_empty, List.nil_append, map_fst_tried]

theorem run_run (distinct : platforms.Nodup) : (run task platforms).run w =
    (Job.ofAttempt (report (tried task platforms w).1)).run (tried task platforms w).2 := by
  -- the table of outcomes lists them as they came, so that the report reads this list
  obtain ⟨done, ran, entries⟩ := run_outcomes task distinct w
  rw [run, Job.run_bind_ok ran, entries]

/-! ### The report -/

/-- What is told of a platform that failed. -/
def complaint (platform : String) (fault : Fault) : Notice :=
  .error s!"[{platform}] {fault.message}"

/-- What is told of the outcome of a platform, if it failed. -/
def complaint? : String × Except Fault Unit → Option Notice
  | (_, .ok _) => none
  | (platform, .error fault) => some (complaint platform fault)

/-- Every fault among outcomes is one that a job survives. -/
def IsSurvived (results : List (String × Except Fault Unit)) : Prop :=
  ∀ e ∈ results, ∀ fault, e.2 = .error fault → fault.isRecoverable = true

theorem isSurvived_cons {e : String × Except Fault Unit}
    {results : List (String × Except Fault Unit)} : IsSurvived (e :: results) ↔
      (∀ fault, e.2 = .error fault → fault.isRecoverable = true) ∧ IsSurvived results :=
  List.forall_mem_cons

/-- A report tells of every platform that failed, and counts them. -/
theorem runFrom_report {results : List (String × Except Fault Unit)}
    (recoverable : IsSurvived results) : (report results).runFrom told =
      (.ok (results.filterMap complaint?).length, told ++ results.filterMap complaint?) := by
  induction results generalizing told with
  | nil => rw [List.filterMap_nil, List.append_nil]; rfl
  | cons e results ih =>
    obtain ⟨here, later⟩ := isSurvived_cons.1 recoverable
    obtain ⟨platform, r⟩ := e
    cases r with
    | ok _ => exact ih later
    | error fault =>
      rw [report, if_pos (here fault rfl), Attempt.runFrom_bind_ok (Attempt.runFrom_tell _),
        Attempt.runFrom_bind_ok (ih later), Attempt.runFrom_pure, List.append_assoc]
      rfl

/-- Where a report is told to its end, every fault in it is one that a job survives. -/
theorem recoverable_of_report {results : List (String × Except Fault Unit)} {n : Nat}
    {after : List Notice} (h : (report results).runFrom told = (.ok n, after)) :
    IsSurvived results := by
  induction results generalizing told n after with
  | nil => exact fun e mem => absurd mem List.not_mem_nil
  | cons e results ih =>
    obtain ⟨platform, r⟩ := e
    rw [isSurvived_cons]
    cases r with
    | ok _ => exact ⟨fun fault failed => (nomatch failed), ih h⟩
    | error cause =>
      rw [report] at h
      split at h
      · next survives =>
        obtain ⟨_, mid, -, h⟩ := Attempt.exists_of_runFrom_bind h
        obtain ⟨failures, mid', rest, h⟩ := Attempt.exists_of_runFrom_bind h
        refine ⟨fun fault same => ?_, ih rest⟩
        cases same
        exact survives
      · cases h

/-- What is told at the end of a run. -/
def complaints (task : String → Job Unit) (platforms : List String) (w : Workspace) :
    List Notice :=
  (tried task platforms w).1.filterMap complaint?

theorem isError_of_mem_complaints : ∀ e ∈ complaints task platforms w, e.isError = true := by
  intro e mem
  obtain ⟨⟨p, r⟩, -, told⟩ := List.mem_filterMap.1 mem
  cases r <;> cases told
  rfl

/-- Where every fault is survived, the run ends with the number of complaints. -/
theorem run_eq_of_recoverable (distinct : platforms.Nodup)
    (recoverable : IsSurvived (tried task platforms w).1) :
    (run task platforms).run w = (.ok (complaints task platforms w).length,
      { files := (tried task platforms w).2.files
        notices := (tried task platforms w).2.notices ++ complaints task platforms w }) := by
  rw [run_run distinct, Job.run_ofAttempt, runFrom_report recoverable]
  rfl

theorem recoverable_of_run {n : Nat} {w' : Workspace} (distinct : platforms.Nodup)
    (ran : (run task platforms).run w = (.ok n, w')) :
    IsSurvived (tried task platforms w).1 := by
  rw [run_run distinct, Job.run_ofAttempt] at ran
  exact recoverable_of_report (Prod.ext (Prod.mk.inj ran).1 rfl)

/-! ### Faults that no job survives -/

/-- Whether the task of a platform ended with a fault. -/
def hasFailed (e : String × Except Fault Unit) : Bool := (complaint? e).isSome

/-- What comes of a run, given the outcomes of the tasks and the workspace after all of them. -/
inductive IsReported (results : List (String × Except Fault Unit)) (after : Workspace) :
    Except Fault Nat × Workspace → Prop
  /-- All failures are reported in their order, and counted. -/
  | counted (survived : IsSurvived results) : IsReported results after
      (.ok (results.countP hasFailed),
        { after with notices := after.notices ++ results.filterMap complaint? })
  /-- The first fault that no job survives ends the run, those before it having been reported. -/
  | stopped {before later : List (String × Except Fault Unit)} {platform : String} {fault : Fault}
      (first : results = before ++ (platform, .error fault) :: later)
      (survived : IsSurvived before) (fatal : fault.isRecoverable = false) :
      IsReported results after (.error fault,
        { after with notices := after.notices ++ before.filterMap complaint? })

/-- Among outcomes there is a first fault that no job survives, if there is one at all. -/
theorem isSurvived_or_stopped (results : List (String × Except Fault Unit)) :
    IsSurvived results ∨ ∃ before platform fault later,
      results = before ++ (platform, .error fault) :: later ∧ IsSurvived before ∧
        fault.isRecoverable = false := by
  induction results with
  | nil => exact .inl fun e mem => absurd mem List.not_mem_nil
  | cons e results ih =>
    obtain ⟨platform, r⟩ := e
    by_cases here : ∀ fault, r = .error fault → fault.isRecoverable = true
    · rcases ih with survived | ⟨before, platform', fault, later, rfl, survived, fatal⟩
      · exact .inl (isSurvived_cons.2 ⟨here, survived⟩)
      · exact .inr ⟨(platform, r) :: before, platform', fault, later, rfl,
          isSurvived_cons.2 ⟨here, survived⟩, fatal⟩
    · push Not at here
      obtain ⟨fault, rfl, fatal⟩ := here
      exact .inr ⟨[], platform, fault, results, rfl, fun e mem => absurd mem List.not_mem_nil,
        Bool.of_not_eq_true fatal⟩

/-- A report ends with the first fault that no job survives, and tells of those before it. -/
theorem runFrom_report_stopped {before later : List (String × Except Fault Unit)}
    {platform : String} {fault : Fault} (survived : IsSurvived before)
    (fatal : fault.isRecoverable = false) :
    (report (before ++ (platform, .error fault) :: later)).runFrom told =
      (.error fault, told ++ before.filterMap complaint?) := by
  induction before generalizing told with
  | nil =>
    rw [List.nil_append, report, if_neg (by rw [fatal]; exact Bool.false_ne_true),
      Attempt.runFrom_throw, List.filterMap_nil, List.append_nil]
  | cons e before ih =>
    obtain ⟨here, rest⟩ := isSurvived_cons.1 survived
    obtain ⟨platform', r⟩ := e
    cases r with
    | ok _ => exact ih rest
    | error cause =>
      rw [List.cons_append, report, if_pos (here cause rfl),
        Attempt.runFrom_bind_ok (Attempt.runFrom_tell _), Attempt.runFrom_bind_error (ih rest),
        List.append_assoc]
      rfl

/-- A task that notes its start and then ends as it is told to. -/
def assigned (outcome : String → Except Fault Unit) (platform : String) : Job Unit := do
  Job.tell (.info platform)
  Job.ofExcept (outcome platform)

/-- Each start is noted once, and in the order of the platforms. -/
theorem tried_assigned (outcome : String → Except Fault Unit) :
    tried (assigned outcome) platforms w = (platforms.map fun p => (p, outcome p),
      { w with notices := w.notices ++ platforms.map .info }) := by
  induction platforms generalizing w with
  | nil => simp [tried]
  | cons p platforms ih =>
    rw [tried, assigned, Job.run_bind_ok (Job.run_tell _), Job.run_ofExcept]
    simp [ih]

/-- The task of each platform is run once, in the order of the platforms and on what those before
it have left, and then the run ends as the outcomes say. Tasks that note their starts and have
their outcomes assigned show it. -/
theorem run_isReported (task : String → Job Unit) (distinct : platforms.Nodup) (w : Workspace) :
    (tried task platforms w).1.map Prod.fst = platforms ∧
      IsReported (tried task platforms w).1 (tried task platforms w).2
        ((run task platforms).run w) ∧
      ∀ outcome, tried (assigned outcome) platforms w = (platforms.map fun p => (p, outcome p),
        { w with notices := w.notices ++ platforms.map .info }) := by
  refine ⟨map_fst_tried, ?_, fun outcome => tried_assigned outcome⟩
  rcases isSurvived_or_stopped (tried task platforms w).1 with
    survived | ⟨before, platform, fault, later, first, survived, fatal⟩
  · rw [run_eq_of_recoverable distinct survived, complaints, List.length_filterMap_eq_countP]
    exact .counted survived
  · rw [run_run distinct, Job.run_ofAttempt, first, runFrom_report_stopped survived fatal]
    exact .stopped rfl survived fatal

/-- Of four tasks one fails with a fault that is survived, the third with one that is not, and
the last is run nevertheless, although its own fault is not reported any more. -/
def mixedOutcome : String → Except Fault Unit
  | "pc" => .error .namelessRecord
  | "mac" => .error .longField
  | "ios" => .error (.noCatalog "ios")
  | _ => .ok ()

theorem run_isReported_mixedOutcome :
    ["pc", "linux", "mac", "ios"].Nodup ∧
      IsReported [("pc", .error .namelessRecord), ("linux", .ok ()), ("mac", .error .longField),
          ("ios", .error (.noCatalog "ios"))]
        { notices := [.info "pc", .info "linux", .info "mac", .info "ios"] }
        ((run (assigned mixedOutcome) ["pc", "linux", "mac", "ios"]).run {}) := by
  have distinct : ["pc", "linux", "mac", "ios"].Nodup := by decide
  obtain ⟨-, reported, starts⟩ := run_isReported (assigned mixedOutcome) distinct {}
  rw [starts] at reported
  exact ⟨distinct, reported⟩

/-! ### Platforms that fail at once -/

/-- Some platforms among others that fail at once: their tasks leave the same files and tell the
same, and there is one more outcome for each of the others. -/
theorem tried_filter {keep : String → Bool} {why : String → Fault}
    (same : ∀ p ∈ platforms, keep p = true → task p = task' p)
    (steady : ∀ p ∈ platforms, keep p = true → (task p).IsSteady)
    (fails : ∀ p ∈ platforms, keep p = false → ∀ w, (task p).run w = (.error (why p), w))
    (files : FileTree) (told told' : List Notice) :
    (tried task platforms ⟨files, told⟩).2.files =
        (tried task' (platforms.filter keep) ⟨files, told'⟩).2.files ∧
      (∃ more, (tried task platforms ⟨files, told⟩).2.notices = told ++ more ∧
        (tried task' (platforms.filter keep) ⟨files, told'⟩).2.notices = told' ++ more) ∧
      (tried task platforms ⟨files, told⟩).1.Perm
        ((tried task' (platforms.filter keep) ⟨files, told'⟩).1 ++
          (platforms.filter (!keep ·)).map fun p => (p, .error (why p))) := by
  induction platforms generalizing files told told' with
  | nil => exact ⟨rfl, ⟨[], by simp [tried]⟩, .refl _⟩
  | cons p platforms ih =>
    rw [List.forall_mem_cons] at same steady fails
    cases kept : keep p with
    | false =>
      -- nothing happens but that a fault is noted
      obtain ⟨after, more, outcomes⟩ := ih same.2 steady.2 fails.2 files told told'
      rw [tried, fails.1 kept, List.filter_cons_of_neg (by simp [kept]),
        List.filter_cons_of_pos (by simp [kept])]
      refine ⟨after, more, ?_⟩
      rw [List.map_cons]
      exact (outcomes.cons _).trans List.perm_middle.symm
    | true =>
      -- the task does the same in both runs, and leaves the same files to the next
      obtain ⟨r, next, notices, ran⟩ := steady.1 kept files
      obtain ⟨after, ⟨more, told₁, told₂⟩, outcomes⟩ :=
        ih same.2 steady.2 fails.2 next (told ++ notices) (told' ++ notices)
      rw [List.filter_cons_of_pos kept, List.filter_cons_of_neg (by simp [kept]), tried, tried,
        ← same.1 kept, ran, ran]
      refine ⟨after, ⟨notices ++ more, ?_, ?_⟩, outcomes.cons _⟩
      · rw [← List.append_assoc]
        exact told₁
      · rw [← List.append_assoc]
        exact told₂

theorem filterMap_complaint?_failed (platforms : List String) (why : String → Fault) :
    (platforms.map fun p => (p, Except.error (why p))).filterMap complaint? =
      platforms.map fun p => complaint p (why p) := by
  rw [List.filterMap_map, ← List.filterMap_eq_map]
  rfl

/-- A run for platforms of which some fail at once leaves the same files as the run for the
others, and tells the same but for one complaint for each that fails. -/
theorem run_filter {keep : String → Bool} {why : String → Fault} {files : FileTree} {n : Nat}
    {told' : List Notice} {w' : Workspace} (distinct : platforms.Nodup)
    (same : ∀ p ∈ platforms, keep p = true → task p = task' p)
    (steady : ∀ p ∈ platforms, keep p = true → (task p).IsSteady)
    (fails : ∀ p ∈ platforms, keep p = false → ∀ w, (task p).run w = (.error (why p), w))
    (survived : ∀ p ∈ platforms, keep p = false → (why p).isRecoverable = true)
    (ran : (run task' (platforms.filter keep)).run ⟨files, told'⟩ = (.ok n, w'))
    (told : List Notice) :
    ∃ w, (run task platforms).run ⟨files, told⟩ =
        (.ok (n + (platforms.filter (!keep ·)).length), w) ∧ w.files = w'.files ∧
      ∃ more errors errors', w.notices = told ++ more ++ errors ∧
        w'.notices = told' ++ more ++ errors' ∧ (∀ e ∈ errors, e.isError = true) ∧
        (∀ e ∈ errors', e.isError = true) ∧
        errors.Perm (errors' ++ (platforms.filter (!keep ·)).map fun p => complaint p (why p)) := by
  obtain ⟨after, ⟨more, told₁, told₂⟩, outcomes⟩ :=
    tried_filter same steady fails files told told'
  -- all faults of the shorter run are survived, and so are those that the other adds
  have recoverable := recoverable_of_run (distinct.filter keep) ran
  have recoverable' : IsSurvived (tried task platforms ⟨files, told⟩).1 := by
    intro e mem fault failed
    rcases List.mem_append.1 (outcomes.mem_iff.1 mem) with kept | added
    · exact recoverable e kept fault failed
    · obtain ⟨p, left, rfl⟩ := List.mem_map.1 added
      cases failed
      obtain ⟨mem, dropped⟩ := List.mem_filter.1 left
      exact survived p mem (by simpa using dropped)
  have perm : (complaints task platforms ⟨files, told⟩).Perm
      (complaints task' (platforms.filter keep) ⟨files, told'⟩ ++
        (platforms.filter (!keep ·)).map fun p => complaint p (why p)) := by
    have mapped := outcomes.filterMap complaint?
    rwa [List.filterMap_append, filterMap_complaint?_failed] at mapped
  -- both runs are known in full now, and their numbers of complaints compare as the lists do
  rw [run_eq_of_recoverable (distinct.filter keep) recoverable] at ran
  obtain ⟨count, rfl⟩ := Prod.mk.inj ran
  have sum := perm.length_eq
  rw [List.length_append, List.length_map, Except.ok.inj count] at sum
  have ran' := run_eq_of_recoverable distinct recoverable'
  rw [sum] at ran'
  refine ⟨_, ran', after, more, _, _, ?_, ?_, isError_of_mem_complaints,
    isError_of_mem_complaints, perm⟩
  · rw [told₁]
  · rw [told₂]

end PerPlatform

end PackPlan
