import PackPlan.Job
import PackPlan.Proofs.Attempt
import PackPlan.Proofs.Results

/-!
# How jobs run

A job runs on a workspace. Its steps run one after the other, each on what the one before it
has left.

## Main results

* `Job.run_bind`, `Job.run_bind_ok`, `Job.run_bind_error`, `Job.exists_of_run_bind` — one step
  before others
* `Job.run_outcome` — a step whose fault is kept as a value
* `Job.run_ofAttempt`, `Job.run_ask`, `Job.run_change` — steps on the parts of a workspace
* `Job.run_guardOverwrite` — when a file may be written
* `Job.ofAttempt_bind_congr` — steps that agree on what an attempt can yield
* `Job.exists_of_run_ofExcept_bind`, `Job.exists_of_run_ofAttempt_bind`,
  `Job.exists_of_run_inspect_bind`, `Job.run_of_guardOverwrite_bind` — these steps before others
-/

namespace PackPlan.Job

variable {α β : Type} {m : Job α} {f : α → Job β} {a : α} {fault : Fault} {w w' : Workspace}

theorem ext {m' : Job α} (same : ∀ w, m.run w = m'.run w) : m = m' := funext same

@[simp] theorem run_pure (a : α) : (pure a : Job α).run w = (.ok a, w) := rfl

@[simp] theorem run_throw (fault : Fault) : (throw fault : Job α).run w = (.error fault, w) := rfl

@[simp] theorem run_ofExcept (r : Except Fault α) : (ofExcept r).run w = (r, w) := rfl

/-- A step that looks at the workspace. -/
@[simp] theorem run_get_bind (f : Workspace → Job β) : (get >>= f).run w = (f w).run w := rfl

theorem run_bind : (m >>= f).run w = match m.run w with
    | (.ok a, w') => (f a).run w'
    | (.error fault, w') => (.error fault, w') := by
  split
  · next a w' ran => exact Steps.runOn_bind_ok ran
  · next fault w' ran => exact Steps.runOn_bind_error ran

theorem run_bind_ok (h : m.run w = (.ok a, w')) : (m >>= f).run w = (f a).run w' :=
  Steps.runOn_bind_ok h

theorem run_bind_error (h : m.run w = (.error fault, w')) :
    (m >>= f).run w = (.error fault, w') :=
  Steps.runOn_bind_error h

/-- Where the whole ran to its end, so did the first step. -/
theorem exists_of_run_bind {b : β} (h : (m >>= f).run w = (.ok b, w')) :
    ∃ a mid, m.run w = (.ok a, mid) ∧ (f a).run mid = (.ok b, w') :=
  Steps.exists_of_runOn_bind h

/-- A job that yields something, and what holds after it. -/
theorem exists_run_and_of_toOption {P : Workspace → Prop}
    (h : (m.run w).1.toOption = some a ∧ P (m.run w).2) : ∃ w', m.run w = (.ok a, w') ∧ P w' :=
  ⟨_, Prod.ext (eq_ok_of_toOption h.1) rfl, h.2⟩

theorem exists_run_of_toOption (h : (m.run w).1.toOption = some a) :
    ∃ w', m.run w = (.ok a, w') :=
  ⟨_, Prod.ext (eq_ok_of_toOption h) rfl⟩

/-- A step whose fault is kept as a value. -/
theorem run_outcome (m : Job α) : m.outcome.run w = (.ok (m.run w).1, (m.run w).2) := rfl

/-- A step that leaves the files alone. -/
theorem run_ofAttempt (m : Attempt α) : (ofAttempt m).run w =
    ((m.runFrom w.notices).1, { w with notices := (m.runFrom w.notices).2 }) := rfl

/-- A step that only looks at the files. -/
theorem run_inspect (m : FileTree → Attempt α) : (inspect m).run w =
    (((m w.files).runFrom w.notices).1,
      { w with notices := ((m w.files).runFrom w.notices).2 }) := rfl

@[simp] theorem run_tell (n : Notice) :
    (tell n).run w = (.ok (), { w with notices := w.notices ++ [n] }) := rfl

@[simp] theorem run_ask (question : FileTree → Except FileTree.Fault α) :
    (ask question).run w = ((question w.files).mapError .files, w) := rfl

theorem run_change (f : FileTree → Except FileTree.Fault FileTree) : (change f).run w =
    match f w.files with
    | .ok files => (.ok (), { w with files })
    | .error cause => (.error (.files cause), w) := by
  rw [change, run_bind, run_ask]
  cases f w.files with
  | ok files => rfl
  | error cause => rfl

theorem files_of_run_change {change : FileTree → Except FileTree.Fault FileTree} {a : Unit}
    (h : (Job.change change).run w = (.ok a, w')) : change w.files = .ok w'.files := by
  rw [run_change] at h
  split at h
  · next files done =>
    cases h
    exact done
  · cases h

/-- A file may be written if overwriting is allowed, or nothing is there. -/
theorem run_guardOverwrite (p : FilePath) (allowed : Bool) : (guardOverwrite p allowed).run w =
    (match w.files.exists? p with
      | .error cause => .error (.files cause)
      | .ok there => if there && !allowed then .error (.overwrite p.text) else .ok (), w) := by
  rw [guardOverwrite, run_bind, run_ask]
  cases w.files.exists? p with
  | error cause => rfl
  | ok there => cases there <;> cases allowed <;> rfl

/-- What is made of the result of an attempt matters only for the results that it can have. -/
theorem ofAttempt_bind_congr {m : Attempt α} {f g : α → Job β}
    (same : ∀ a told told', m.runFrom told = (.ok a, told') → f a = g a) :
    (ofAttempt m >>= f) = (ofAttempt m >>= g) := by
  refine ext fun w => ?_
  rw [run_bind, run_bind, run_ofAttempt]
  cases ran : m.runFrom w.notices with
  | mk result told =>
    cases result with
    | ok a => exact congrArg (fun rest : Job β => rest.run _) (same a _ _ ran)
    | error fault => rfl

/-! ### Steps before others that ran to the end -/

theorem exists_of_run_ofExcept_bind {r : Except Fault α} {b : β}
    (h : (ofExcept r >>= f).run w = (.ok b, w')) :
    ∃ a, r = .ok a ∧ (f a).run w = (.ok b, w') := by
  obtain ⟨a, mid, first, rest⟩ := exists_of_run_bind h
  cases first
  exact ⟨a, rfl, rest⟩

theorem exists_of_run_ofAttempt_bind {m : Attempt α} {b : β}
    (h : (ofAttempt m >>= f).run w = (.ok b, w')) :
    ∃ a told, m.runFrom w.notices = (.ok a, told) ∧
      (f a).run { w with notices := told } = (.ok b, w') := by
  obtain ⟨a, mid, first, rest⟩ := exists_of_run_bind h
  obtain ⟨yields, rfl⟩ := Prod.mk.inj ((run_ofAttempt m).symm.trans first)
  exact ⟨a, _, Prod.ext yields rfl, rest⟩

theorem exists_of_run_inspect_bind {m : FileTree → Attempt α} {b : β}
    (h : (inspect m >>= f).run w = (.ok b, w')) :
    ∃ a told, (m w.files).runFrom w.notices = (.ok a, told) ∧
      (f a).run { w with notices := told } = (.ok b, w') :=
  exists_of_run_ofAttempt_bind h

theorem run_of_guardOverwrite_bind {p : FilePath} {allowed : Bool} {f : Unit → Job β} {b : β}
    (h : (guardOverwrite p allowed >>= f).run w = (.ok b, w')) : (f ()).run w = (.ok b, w') := by
  obtain ⟨_, mid, first, rest⟩ := exists_of_run_bind h
  obtain ⟨-, rfl⟩ := Prod.mk.inj ((run_guardOverwrite p allowed).symm.trans first)
  exact rest

end PackPlan.Job
