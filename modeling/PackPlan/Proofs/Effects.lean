import PackPlan.Proofs.Job
import PackPlan.Proofs.Results

/-!
# What jobs can do

What a job can do to the files, and with which faults it can stop, is known of its steps and
carried to the whole: what holds of every step holds of the steps together.

## Main definitions

* `Attempt.StopsOnly`, `Job.StopsOnly` — every fault is of a kind
* `Job.ChangesBy` — how the files after a job stand to those before it
* `Job.IsStill` — a job that leaves the files as they are

## Main results

* `Job.ChangesBy.bind`, `Job.isStepwise_changesBy` — steps that change the files in one way
* `Job.IsStill.changesBy` — what leaves the files as they are changes them in any way
* `Attempt.StopsOnly.bind_of_runFrom`, `Attempt.isStepwise_stopsOnly`, `Job.StopsOnly.bind`,
  `Job.isStepwise_stopsOnly` — steps that stop with one kind of fault
* `Job.StopsOnly.outcome_bind` — a step whose fault is looked at
-/

namespace PackPlan

variable {α β : Type} {P Q : Fault → Prop} {fault : Fault}

/-! ### The faults of attempts -/

namespace Attempt

variable {m : Attempt α} {f : α → Attempt β}

/-- Every fault with which an attempt stops is of a kind, whatever was told before. -/
def StopsOnly (P : Fault → Prop) (m : Attempt α) : Prop :=
  ∀ told fault, (m.runFrom told).1 = .error fault → P fault

theorem stopsOnly_pure (a : α) : StopsOnly P (pure a) := by
  intro told fault h
  cases h

theorem stopsOnly_throw (here : P fault) : StopsOnly P (throw fault : Attempt α) := by
  intro told other h
  cases h
  exact here

theorem stopsOnly_ofExcept {r : Except Fault α} (h : ∀ fault, r = .error fault → P fault) :
    StopsOnly P (ofExcept r) :=
  fun _ => h

theorem stopsOnly_tell (n : Notice) : StopsOnly P (tell n) := by
  intro told fault h
  cases h

theorem StopsOnly.mono (stops : m.StopsOnly P) (imp : ∀ fault, P fault → Q fault) :
    m.StopsOnly Q :=
  fun told fault h => imp fault (stops told fault h)

/-- The steps after the first are asked only for what it yields. -/
theorem StopsOnly.bind_of_runFrom (first : m.StopsOnly P)
    (rest : ∀ a told told', m.runFrom told = (.ok a, told') → (f a).StopsOnly P) :
    (m >>= f).StopsOnly P :=
  Steps.StopsOnly.bind_of_runOn first rest

theorem StopsOnly.bind (first : m.StopsOnly P) (rest : ∀ a, (f a).StopsOnly P) :
    (m >>= f).StopsOnly P :=
  first.bind_of_runFrom fun a _ _ _ => rest a

theorem isStepwise_stopsOnly : IsStepwise Attempt (StopsOnly P) :=
  ⟨stopsOnly_pure, StopsOnly.bind⟩

theorem stopsOnly_forM_tell (notices : List Notice) : StopsOnly P (notices.forM tell) :=
  isStepwise_stopsOnly.forM fun n _ => stopsOnly_tell n

end Attempt

namespace Job

variable {m : Job α} {f : α → Job β}

/-! ### The faults of jobs -/

/-- Every fault with which a job stops is of a kind. -/
def StopsOnly (P : Fault → Prop) (m : Job α) : Prop :=
  ∀ w fault, (m.run w).1 = .error fault → P fault

theorem stopsOnly_pure (a : α) : StopsOnly P (pure a) := by
  intro w fault h
  cases h

theorem stopsOnly_throw (here : P fault) : StopsOnly P (throw fault : Job α) := by
  intro w other h
  cases h
  exact here

theorem stopsOnly_ofExcept {r : Except Fault α} (h : ∀ fault, r = .error fault → P fault) :
    StopsOnly P (ofExcept r) :=
  fun _ => h

theorem stopsOnly_ofAttempt {m : Attempt α} (h : m.StopsOnly P) : StopsOnly P (ofAttempt m) :=
  fun w => h w.notices

theorem stopsOnly_tell (n : Notice) : StopsOnly P (tell n) := by
  intro w fault h
  cases h

theorem stopsOnly_ask (files : ∀ cause, P (.files cause))
    (question : FileTree → Except FileTree.Fault α) : StopsOnly P (ask question) := by
  intro w fault h
  obtain ⟨cause, -, rfl⟩ := exists_of_mapError h
  exact files cause

theorem stopsOnly_change (files : ∀ cause, P (.files cause))
    (f : FileTree → Except FileTree.Fault FileTree) : StopsOnly P (change f) := by
  intro w fault h
  rw [run_change] at h
  split at h
  · cases h
  · next cause _ =>
    cases h
    exact files cause

theorem stopsOnly_path (path : ∀ cause, P (.path cause)) (r : Except FilePath.Fault α) :
    StopsOnly P (Job.path r) := by
  apply stopsOnly_ofExcept
  intro fault h
  obtain ⟨cause, -, rfl⟩ := exists_of_mapError h
  exact path cause

theorem StopsOnly.bind (first : m.StopsOnly P) (rest : ∀ a, (f a).StopsOnly P) :
    (m >>= f).StopsOnly P :=
  Steps.StopsOnly.bind_of_runOn first fun a _ _ _ => rest a

theorem isStepwise_stopsOnly : IsStepwise Job (StopsOnly P) := ⟨stopsOnly_pure, StopsOnly.bind⟩

/-- A step that looks at the workspace. -/
theorem stopsOnly_get_bind {f : Workspace → Job β} (rest : ∀ w, (f w).StopsOnly P) :
    (get >>= f).StopsOnly P :=
  fun w => rest w w

/-- A step whose fault is looked at before anything is made of it. -/
theorem StopsOnly.outcome_bind {f : Except Fault α → Job β} (first : m.StopsOnly Q)
    (done : ∀ a, (f (.ok a)).StopsOnly P)
    (stopped : ∀ fault, Q fault → (f (.error fault)).StopsOnly P) :
    (m.outcome >>= f).StopsOnly P := by
  intro w fault h
  -- the step itself ends well, so that the rest decides whether there is a fault
  rw [run_bind_ok (run_outcome m)] at h
  cases here : (m.run w).1 with
  | ok a =>
    rw [here] at h
    exact done a _ fault h
  | error cause =>
    rw [here] at h
    exact stopped cause (first w cause here) _ fault h

/-- A file is written, or one of the file operations, its path or its content stops that. -/
theorem stopsOnly_writeFile (files : ∀ cause, P (.files cause)) (path : ∀ cause, P (.path cause))
    {content : Except Fault String} (had : ∀ fault, content = .error fault → P fault)
    (p : FilePath) : StopsOnly P (writeFile p content) :=
  (stopsOnly_change files _).bind fun _ => (stopsOnly_path path _).bind fun _ =>
    (stopsOnly_ofExcept had).bind fun _ => (stopsOnly_change files _).bind fun _ =>
      stopsOnly_change files _

/-! ### The files -/

/-- However a job ends, the files after it stand in a relation to those before it. -/
def ChangesBy (R : FileTree → FileTree → Prop) (m : Job α) : Prop :=
  ∀ w, R w.files (m.run w).2.files

/-- A job that leaves the files as they are. -/
def IsStill (m : Job α) : Prop := m.ChangesBy fun t t' => t' = t

variable {R : FileTree → FileTree → Prop}

theorem IsStill.changesBy (h : m.IsStill) (refl : ∀ t, R t t) : m.ChangesBy R := by
  intro w
  rw [h w]
  exact refl w.files

theorem ChangesBy.bind (trans : ∀ t t' t'', R t t' → R t' t'' → R t t'')
    (first : m.ChangesBy R) (rest : ∀ a, (f a).ChangesBy R) : (m >>= f).ChangesBy R :=
  Steps.Leads.bind (R := fun w w' : Workspace => R w.files w'.files)
    (fun _ _ _ => trans _ _ _) first rest

theorem isStepwise_changesBy (refl : ∀ t, R t t)
    (trans : ∀ t t' t'', R t t' → R t' t'' → R t t'') : IsStepwise Job (ChangesBy R) :=
  ⟨fun _ w => refl w.files, ChangesBy.bind trans⟩

theorem changesBy_change {f : FileTree → Except FileTree.Fault FileTree} (refl : ∀ t, R t t)
    (step : ∀ t t', f t = .ok t' → R t t') : (change f).ChangesBy R := by
  intro w
  rw [run_change]
  split
  · next files done => exact step w.files files done
  · exact refl w.files

/-- A step that looks at the workspace. -/
theorem changesBy_get_bind {f : Workspace → Job β} (rest : ∀ w, (f w).ChangesBy R) :
    (get >>= f).ChangesBy R :=
  fun w => rest w w

theorem ChangesBy.outcome (h : m.ChangesBy R) : m.outcome.ChangesBy R := h

theorem IsStill.bind (first : m.IsStill) (rest : ∀ a, (f a).IsStill) : (m >>= f).IsStill :=
  ChangesBy.bind (fun _ _ _ here there => there.trans here) first rest

theorem isStill_pure (a : α) : IsStill (pure a) := fun _ => rfl

theorem isStepwise_isStill : IsStepwise Job IsStill := ⟨isStill_pure, IsStill.bind⟩

theorem isStill_throw (fault : Fault) : IsStill (throw fault : Job α) := fun _ => rfl

theorem isStill_ofExcept (r : Except Fault α) : IsStill (ofExcept r) := fun _ => rfl

theorem isStill_ofAttempt (m : Attempt α) : IsStill (ofAttempt m) := fun _ => rfl

theorem isStill_inspect (m : FileTree → Attempt α) : IsStill (inspect m) := fun _ => rfl

theorem isStill_tell (n : Notice) : IsStill (tell n) := fun _ => rfl

theorem isStill_guardOverwrite (p : FilePath) (allowed : Bool) :
    IsStill (guardOverwrite p allowed) := by
  intro w
  rw [run_guardOverwrite]

/-- A step that looks at the workspace. -/
theorem isStill_get_bind {f : Workspace → Job β} (rest : ∀ w, (f w).IsStill) :
    IsStill (get >>= f) :=
  fun w => rest w w

/-- A change after steps that leave the files as they are, given what these yield. -/
theorem IsStill.bind_changesBy (first : m.IsStill) (refl : ∀ t, R t t)
    (rest : ∀ w a w', m.run w = (.ok a, w') → (f a).ChangesBy R) : (m >>= f).ChangesBy R := by
  intro w
  have same := first w
  rw [run_bind]
  split
  · next a w' ran =>
    rw [ran] at same
    rw [← same]
    exact rest w a w' ran w'
  · next fault w' ran =>
    rw [ran] at same
    rw [← same]
    exact refl w'.files

/-- A change before steps that leave the files as they are. -/
theorem ChangesBy.bind_isStill (first : m.ChangesBy R) (rest : ∀ a, (f a).IsStill) :
    (m >>= f).ChangesBy R := by
  intro w
  have here := first w
  rw [run_bind]
  split
  · next a w' ran =>
    rw [ran] at here
    rw [rest a w']
    exact here
  · next fault w' ran =>
    rw [ran] at here
    exact here

/-- What comes after the guard against overwriting runs only where nothing is found. -/
theorem ChangesBy.guarded {p : FilePath} {f : Unit → Job β} (refl : ∀ t, R t t)
    (rest : (f ()).ChangesBy fun t t' => t.exists? p = .ok false → R t t') :
    (guardOverwrite p false >>= f).ChangesBy R := by
  intro w
  rw [run_bind, run_guardOverwrite]
  cases there : w.files.exists? p with
  | error cause => exact refl w.files
  | ok yes =>
    cases yes with
    | true => exact refl w.files
    | false => exact rest w there

end Job

end PackPlan
