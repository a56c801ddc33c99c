import Mathlib.Data.List.Forall2
import PackPlan.Proofs.Steps

/-!
# How attempts run

An attempt runs from the notices that have been told before it. Its steps run one after the
other, and a fault of one is the fault of all.

## Main definitions

* `Attempt.runFrom` — what an attempt yields and what has been told after it
* `Attempt.IsSteady` — what was told before makes no difference to an attempt

## Main results

* `Attempt.runFrom_bind`, `Attempt.runFrom_bind_ok`, `Attempt.runFrom_bind_error` — one
  step before others
* `Attempt.exists_of_runFrom_bind`, `Attempt.forall₂_of_mapM`,
  `Attempt.exists_result_of_mapM`, `Attempt.exists_item_of_mapM` — the steps of an attempt that
  ran to its end
* `Attempt.runFrom_mapM` — steps for each item of a list
* `Attempt.runFrom_tell`, `Attempt.runFrom_forM_tell`, `Attempt.runFrom_ofExcept` — the
  steps that there are
* `Attempt.ofTelling_bind` — an attempt that cannot stop, step by step
* `Attempt.IsSteady.bind`, `Attempt.isStepwise_isSteady` — steady steps, one after the other
-/

namespace PackPlan.Attempt

variable {α β : Type} {m : Attempt α} {f : α → Attempt β} {a : α} {fault : Fault}
  {b : β} {told told' : List Notice}

/-- What an attempt yields and what has been told after it, if something had been told
before. -/
def runFrom (m : Attempt α) (told : List Notice) : Except Fault α × List Notice :=
  StateT.run (ExceptT.run m) told

theorem run_eq_runFrom (m : Attempt α) : m.run = m.runFrom [] := rfl

@[simp] theorem runFrom_pure (a : α) : (pure a : Attempt α).runFrom told = (.ok a, told) := rfl

@[simp] theorem runFrom_ofExcept (r : Except Fault α) :
    (ofExcept r).runFrom told = (r, told) := rfl

@[simp] theorem runFrom_tell (n : Notice) : (tell n).runFrom told = (.ok (), told ++ [n]) := rfl

@[simp] theorem runFrom_throw : (throw fault : Attempt α).runFrom told = (.error fault, told) := rfl

/-- A step whose fault is kept as a value. -/
theorem runFrom_lift_run (m : Attempt α) : runFrom (ExceptT.lift (ExceptT.run m)) told =
    (.ok (m.runFrom told).1, (m.runFrom told).2) := rfl

/-- A step runs first, and the others run with what it yields. -/
theorem runFrom_bind : (m >>= f).runFrom told = match m.runFrom told with
    | (.ok a, told') => (f a).runFrom told'
    | (.error fault, told') => (.error fault, told') := by
  split
  · next a told' ran => exact Steps.runOn_bind_ok ran
  · next fault told' ran => exact Steps.runOn_bind_error ran

theorem runFrom_bind_ok (h : m.runFrom told = (.ok a, told')) :
    (m >>= f).runFrom told = (f a).runFrom told' :=
  Steps.runOn_bind_ok h

theorem runFrom_bind_error (h : m.runFrom told = (.error fault, told')) :
    (m >>= f).runFrom told = (.error fault, told') :=
  Steps.runOn_bind_error h

/-- Where the whole ran to its end, so did the first step. -/
theorem exists_of_runFrom_bind (h : (m >>= f).runFrom told = (.ok b, told')) :
    ∃ a mid, m.runFrom told = (.ok a, mid) ∧ (f a).runFrom mid = (.ok b, told') :=
  Steps.exists_of_runOn_bind h

theorem runFrom_forM_tell (notices : List Notice) :
    (notices.forM tell).runFrom told = (.ok (), told ++ notices) := by
  induction notices generalizing told with
  | nil => rw [List.append_nil]; rfl
  | cons n notices ih =>
    change (tell n >>= fun _ => notices.forM tell).runFrom told = _
    rw [runFrom_bind_ok (runFrom_tell n), ih, List.append_assoc, List.singleton_append]

/-- What steps yield and tell one by one they yield and tell together. -/
theorem runFrom_mapM {as : List α} {g : α → β × List Notice}
    (h : ∀ a ∈ as, ∀ told, (f a).runFrom told = (.ok (g a).1, told ++ (g a).2)) :
    (as.mapM f).runFrom told =
      (.ok (as.map fun a => (g a).1), told ++ as.flatMap fun a => (g a).2) := by
  induction as generalizing told with
  | nil =>
    rw [List.flatMap_nil, List.append_nil]
    rfl
  | cons a as ih =>
    rw [List.forall_mem_cons] at h
    rw [List.mapM_cons, runFrom_bind_ok (h.1 told), runFrom_bind_ok (ih h.2), runFrom_pure,
      List.flatMap_cons, List.append_assoc]
    rfl

/-- Where steps ran to their end one after the other, each of them ran to its end. -/
theorem forall₂_of_mapM {as : List α} {bs : List β}
    (h : (as.mapM f).runFrom told = (.ok bs, told')) :
    List.Forall₂ (fun a b => ∃ before after, (f a).runFrom before = (.ok b, after)) as bs := by
  induction as generalizing bs told with
  | nil =>
    cases h
    exact .nil
  | cons a as ih =>
    rw [List.mapM_cons] at h
    obtain ⟨b, mid, here, h⟩ := exists_of_runFrom_bind h
    obtain ⟨later, last, rest, h⟩ := exists_of_runFrom_bind h
    cases h
    exact .cons ⟨told, mid, here⟩ (ih rest)

/-- Of steps that ran to their end together, each yielded one of the results. -/
theorem exists_result_of_mapM {as : List α} {bs : List β}
    (h : (as.mapM f).runFrom told = (.ok bs, told')) (mem : a ∈ as) :
    ∃ b ∈ bs, ∃ before after, (f a).runFrom before = (.ok b, after) := by
  have ran := forall₂_of_mapM h
  obtain ⟨i, within, rfl⟩ := List.mem_iff_getElem.1 mem
  have within' : i < bs.length := ran.length_eq ▸ within
  exact ⟨bs[i], List.getElem_mem within', ran.get within within'⟩

/-- What steps yielded together, the step for one of the items yielded. -/
theorem exists_item_of_mapM {as : List α} {bs : List β}
    (h : (as.mapM f).runFrom told = (.ok bs, told')) (mem : b ∈ bs) :
    ∃ a ∈ as, ∃ before after, (f a).runFrom before = (.ok b, after) := by
  have ran := forall₂_of_mapM h
  obtain ⟨i, within, rfl⟩ := List.mem_iff_getElem.1 mem
  have within' : i < as.length := ran.length_eq ▸ within
  exact ⟨as[i], List.getElem_mem within', ran.get within' within⟩

/-! ### Attempts that cannot stop -/

theorem ofTelling_bind (m : Telling α) (f : α → Telling β) :
    ofTelling (m >>= f) = ofTelling m >>= fun a => ofTelling (f a) := rfl

theorem ofTelling_tell (n : Notice) : ofTelling (Telling.tell n) = tell n := rfl

theorem ofTelling_forM_tell (notices : List Notice) :
    ofTelling (notices.forM Telling.tell) = notices.forM tell := by
  induction notices with
  | nil => rfl
  | cons n notices ih =>
    change ofTelling (Telling.tell n >>= fun _ => notices.forM Telling.tell) =
      (tell n >>= fun _ => notices.forM tell)
    rw [ofTelling_bind, ofTelling_tell, ih]

/-! ### What was told before -/

/-- What was told before makes no difference to what an attempt yields and tells. -/
def IsSteady (m : Attempt α) : Prop :=
  ∃ r notices, ∀ told, m.runFrom told = (r, told ++ notices)

theorem isSteady_pure (a : α) : IsSteady (pure a) :=
  ⟨.ok a, [], fun told => by rw [runFrom_pure, List.append_nil]⟩

theorem isSteady_throw (fault : Fault) : IsSteady (throw fault : Attempt α) :=
  ⟨.error fault, [], fun told => by rw [runFrom_throw, List.append_nil]⟩

theorem isSteady_ofExcept (r : Except Fault α) : IsSteady (ofExcept r) :=
  ⟨r, [], fun told => by rw [runFrom_ofExcept, List.append_nil]⟩

theorem isSteady_tell (n : Notice) : IsSteady (tell n) :=
  ⟨.ok (), [n], fun _ => runFrom_tell n⟩

theorem isSteady_forM_tell (notices : List Notice) : IsSteady (notices.forM tell) :=
  ⟨.ok (), notices, fun _ => runFrom_forM_tell notices⟩

theorem IsSteady.bind (first : m.IsSteady) (rest : ∀ a, (f a).IsSteady) :
    (m >>= f).IsSteady := by
  obtain ⟨r, notices, here⟩ := first
  cases r with
  | error fault => exact ⟨.error fault, notices, fun told => runFrom_bind_error (here told)⟩
  | ok a =>
    obtain ⟨r, later, there⟩ := rest a
    refine ⟨r, notices ++ later, fun told => ?_⟩
    rw [runFrom_bind_ok (here told), there, List.append_assoc]

theorem isStepwise_isSteady : IsStepwise Attempt IsSteady := ⟨isSteady_pure, IsSteady.bind⟩

/-- What a steady attempt yields, it yields whatever was told before. -/
theorem IsSteady.runFrom_fst (steady : m.IsSteady) (told : List Notice) :
    (m.runFrom told).1 = m.run.1 := by
  obtain ⟨r, notices, here⟩ := steady
  rw [run_eq_runFrom, here, here]

end PackPlan.Attempt
