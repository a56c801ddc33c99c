import PackPlan.Proofs.Job

/-!
# Steady jobs

What was told before makes no difference to a steady job: on the same files it yields the same,
makes the same changes and tells the same. All jobs are made of steady steps, so that two runs on
the same files can be compared step by step.

## Main definitions

* `Job.IsSteady` — what was told before makes no difference
* `Attempt.TellsOnly`, `Job.TellsOnly` — what an attempt or a job tells is of a kind

## Main results

* `Job.IsSteady.bind`, `Job.isStepwise_isSteady` — steady steps, one after the other
* `Job.isSteady_writeFile` — writing a file is steady
* `Attempt.TellsOnly.bind`, `Job.TellsOnly.bind`, `Attempt.isStepwise_tellsOnly`,
  `Job.isStepwise_tellsOnly` — what steps tell, one after the other
-/

namespace PackPlan

variable {α β : Type}

/-! ### What attempts tell -/

namespace Attempt

variable {m : Attempt α} {f : α → Attempt β} {P : Notice → Prop}

/-- What an attempt tells is of a kind. -/
def TellsOnly (P : Notice → Prop) (m : Attempt α) : Prop :=
  ∀ told, TellsMore P told (m.runFrom told).2

theorem tellsOnly_pure (a : α) : TellsOnly P (pure a) := TellsMore.refl

theorem tellsOnly_throw (fault : Fault) : TellsOnly P (throw fault : Attempt α) := TellsMore.refl

theorem tellsOnly_ofExcept (r : Except Fault α) : TellsOnly P (ofExcept r) := TellsMore.refl

theorem tellsOnly_tell {n : Notice} (here : P n) : TellsOnly P (tell n) :=
  fun told => ⟨[n], by simp, by simpa using here⟩

theorem tellsOnly_forM_tell {notices : List Notice} (each : ∀ n ∈ notices, P n) :
    TellsOnly P (notices.forM tell) :=
  fun told => ⟨notices, by rw [runFrom_forM_tell], each⟩

/-- A step whose fault is kept as a value. -/
theorem TellsOnly.lift_run (h : m.TellsOnly P) : TellsOnly P (ExceptT.lift (ExceptT.run m)) :=
  fun told => h told

theorem TellsOnly.bind (first : m.TellsOnly P) (rest : ∀ a, (f a).TellsOnly P) :
    (m >>= f).TellsOnly P :=
  Steps.Leads.bind (fun _ _ _ => TellsMore.trans) first rest

theorem isStepwise_tellsOnly : IsStepwise Attempt (TellsOnly P) :=
  ⟨tellsOnly_pure, TellsOnly.bind⟩

/-- What an attempt never tells is told after it as often as before. -/
theorem TellsOnly.filter_eq {kind : Notice → Bool} (h : m.TellsOnly (kind · = false))
    (told : List Notice) : (m.runFrom told).2.filter kind = told.filter kind :=
  (h told).filter_eq

end Attempt

/-! ### Jobs -/

namespace Job

variable {m : Job α} {f : α → Job β}

/-- What was told before makes no difference to what a job yields, changes and tells. -/
def IsSteady (m : Job α) : Prop :=
  ∀ files, ∃ r after notices, ∀ told, m.run ⟨files, told⟩ = (r, ⟨after, told ++ notices⟩)

theorem isSteady_pure (a : α) : IsSteady (pure a) :=
  fun files => ⟨.ok a, files, [], fun told => by rw [List.append_nil]; rfl⟩

theorem isSteady_throw (fault : Fault) : IsSteady (throw fault : Job α) :=
  fun files => ⟨.error fault, files, [], fun told => by rw [List.append_nil]; rfl⟩

theorem isSteady_ofExcept (r : Except Fault α) : IsSteady (ofExcept r) :=
  fun files => ⟨r, files, [], fun told => by rw [List.append_nil]; rfl⟩

theorem isSteady_ofAttempt {m : Attempt α} (steady : m.IsSteady) : IsSteady (ofAttempt m) := by
  obtain ⟨r, notices, ran⟩ := steady
  exact fun files => ⟨r, files, notices, fun told => by rw [run_ofAttempt, ran]⟩

theorem isSteady_inspect {m : FileTree → Attempt α} (steady : ∀ t, (m t).IsSteady) :
    IsSteady (inspect m) := by
  intro files
  obtain ⟨r, notices, ran⟩ := steady files
  exact ⟨r, files, notices, fun told => by rw [run_inspect, ran]⟩

theorem isSteady_tell (n : Notice) : IsSteady (tell n) :=
  isSteady_ofAttempt (Attempt.isSteady_tell n)

theorem isSteady_change (change : FileTree → Except FileTree.Fault FileTree) :
    IsSteady (Job.change change) := by
  intro files
  cases changed : change files with
  | ok after => exact ⟨.ok (), after, [], fun told => by rw [run_change, changed, List.append_nil]⟩
  | error cause =>
    exact ⟨.error (.files cause), files, [],
      fun told => by rw [run_change, changed, List.append_nil]⟩

theorem isSteady_ask (question : FileTree → Except FileTree.Fault α) : IsSteady (ask question) :=
  fun files => ⟨(question files).mapError .files, files, [], fun told => by
    rw [run_ask, List.append_nil]⟩

theorem IsSteady.bind (first : m.IsSteady) (rest : ∀ a, (f a).IsSteady) : (m >>= f).IsSteady := by
  intro files
  obtain ⟨r, after, notices, here⟩ := first files
  -- how the first step ends is fixed before it is known what was told, and so is what comes next
  cases r with
  | error fault => exact ⟨.error fault, after, notices, fun told => run_bind_error (here told)⟩
  | ok a =>
    obtain ⟨r, last, later, there⟩ := rest a after
    refine ⟨r, last, notices ++ later, fun told => ?_⟩
    rw [run_bind_ok (here told), there, List.append_assoc]

theorem isStepwise_isSteady : IsStepwise Job IsSteady := ⟨isSteady_pure, IsSteady.bind⟩

theorem isSteady_guardOverwrite (p : FilePath) (allowed : Bool) :
    IsSteady (guardOverwrite p allowed) := by
  refine (isSteady_ask _).bind fun there => ?_
  split
  · exact isSteady_throw _
  · exact isSteady_pure _

theorem isSteady_writeFile (p : FilePath) (content : Except Fault String) :
    IsSteady (writeFile p content) :=
  (isSteady_change _).bind fun _ => (isSteady_ofExcept _).bind fun _ =>
    (isSteady_ofExcept _).bind fun _ => (isSteady_change _).bind fun _ => isSteady_change _

/-- A step that looks at the files. -/
theorem isSteady_get_files_bind {f : FileTree → Job β} (rest : ∀ t, (f t).IsSteady) :
    IsSteady (get >>= fun w => f w.files) :=
  fun files => rest files files

theorem IsSteady.outcome (h : m.IsSteady) : m.outcome.IsSteady := by
  intro files
  obtain ⟨r, after, notices, ran⟩ := h files
  exact ⟨.ok r, after, notices, fun told => by rw [run_outcome, ran]⟩

/-- What a steady job yields depends on the files alone. -/
theorem IsSteady.run_fst (h : m.IsSteady) {w w' : Workspace} (same : w.files = w'.files) :
    (m.run w).1 = (m.run w').1 := by
  obtain ⟨r, after, notices, ran⟩ := h w.files
  have here := ran w.notices
  have there := ran w'.notices
  rw [same] at there
  exact (congrArg Prod.fst here).trans (congrArg Prod.fst there).symm

/-! ### What jobs tell -/

/-- What a job tells is of a kind. -/
def TellsOnly (P : Notice → Prop) (m : Job α) : Prop :=
  ∀ w, TellsMore P w.notices (m.run w).2.notices

variable {P : Notice → Prop}

/-- A step that tells nothing. -/
theorem tellsOnly_of_notices (quiet : ∀ w, (m.run w).2.notices = w.notices) :
    TellsOnly P m := by
  intro w
  rw [quiet]
  exact .refl w.notices

theorem tellsOnly_pure (a : α) : TellsOnly P (pure a) := tellsOnly_of_notices fun _ => rfl

theorem tellsOnly_throw (fault : Fault) : TellsOnly P (throw fault : Job α) :=
  tellsOnly_of_notices fun _ => rfl

theorem tellsOnly_ofExcept (r : Except Fault α) : TellsOnly P (ofExcept r) :=
  tellsOnly_of_notices fun _ => rfl

theorem tellsOnly_ask (question : FileTree → Except FileTree.Fault α) :
    TellsOnly P (ask question) :=
  tellsOnly_of_notices fun _ => rfl

theorem tellsOnly_change (change : FileTree → Except FileTree.Fault FileTree) :
    TellsOnly P (Job.change change) := by
  refine tellsOnly_of_notices fun w => ?_
  rw [run_change]
  cases change w.files <;> rfl

theorem tellsOnly_ofAttempt {m : Attempt α} (h : m.TellsOnly P) : TellsOnly P (ofAttempt m) :=
  fun w => h w.notices

theorem tellsOnly_tell {n : Notice} (here : P n) : TellsOnly P (tell n) :=
  tellsOnly_ofAttempt (Attempt.tellsOnly_tell here)

/-- A step that looks at the workspace. -/
theorem tellsOnly_get_bind {f : Workspace → Job β} (rest : ∀ w, (f w).TellsOnly P) :
    TellsOnly P (get >>= f) :=
  fun w => rest w w

theorem TellsOnly.bind (first : m.TellsOnly P) (rest : ∀ a, (f a).TellsOnly P) :
    (m >>= f).TellsOnly P :=
  Steps.Leads.bind (R := fun w w' : Workspace => TellsMore P w.notices w'.notices)
    (fun _ _ _ => TellsMore.trans) first rest

theorem isStepwise_tellsOnly : IsStepwise Job (TellsOnly P) := ⟨tellsOnly_pure, TellsOnly.bind⟩

theorem TellsOnly.outcome (h : m.TellsOnly P) : m.outcome.TellsOnly P := h

theorem tellsOnly_guardOverwrite (p : FilePath) (allowed : Bool) :
    TellsOnly P (guardOverwrite p allowed) :=
  tellsOnly_of_notices fun w => by rw [run_guardOverwrite]

theorem tellsOnly_writeFile (p : FilePath) (content : Except Fault String) :
    TellsOnly P (writeFile p content) :=
  (tellsOnly_change _).bind fun _ => (tellsOnly_ofExcept _).bind fun _ =>
    (tellsOnly_ofExcept _).bind fun _ => (tellsOnly_change _).bind fun _ => tellsOnly_change _

/-- What a job never tells is told after it as often as before. -/
theorem TellsOnly.filter_eq {kind : Notice → Bool} (h : m.TellsOnly (kind · = false))
    (w : Workspace) : (m.run w).2.notices.filter kind = w.notices.filter kind :=
  (h w).filter_eq

end Job

end PackPlan
