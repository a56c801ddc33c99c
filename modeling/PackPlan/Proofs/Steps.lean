import PackPlan.Notice

/-!
# Steps, one after the other

Attempts and jobs are made of steps on a state, each of which may stop with a fault. What holds
of the steps is carried to the whole here: for two steps, one after the other, and from there for
the loops over a list.

## Main definitions

* `Steps.runOn` — what steps yield, and the state after them
* `Steps.Leads` — how the state after steps stands to the one before them
* `Steps.StopsOnly` — every fault is of a kind
* `IsStepwise` — what is carried from steps to the whole
* `TellsMore` — what has been told since is of a kind

## Main results

* `Steps.runOn_bind`, `Steps.runOn_bind_ok`, `Steps.runOn_bind_error`,
  `Steps.exists_of_runOn_bind` — one step before others
* `Steps.Leads.bind`, `Steps.StopsOnly.bind_of_runOn` — two steps, one after the other
* `IsStepwise.foldlM`, `IsStepwise.mapM`, `IsStepwise.forM`, `IsStepwise.filterMapM` — the loops
  over a list
-/

namespace PackPlan

/-! ### Loops -/

section Stepwise

variable {m : Type → Type} [Monad m] {C : {α : Type} → m α → Prop} {α β : Type} {as : List α}

/-- What is carried from steps to the whole. -/
structure IsStepwise (m : Type → Type) [Monad m] (C : {α : Type} → m α → Prop) : Prop where
  /-- It holds where there is no step. -/
  pure {α : Type} (a : α) : C (Pure.pure a)
  /-- It holds of a step and those after it together. -/
  bind {α β : Type} {x : m α} {f : α → m β} (first : C x) (rest : ∀ a, C (f a)) : C (x >>= f)

namespace IsStepwise

theorem foldlM [LawfulMonad m] (carried : IsStepwise m C) {f : β → α → m β}
    (step : ∀ b, ∀ a ∈ as, C (f b a)) (b : β) : C (as.foldlM f b) := by
  induction as generalizing b with
  | nil => exact carried.pure b
  | cons a as ih =>
    rw [List.foldlM_cons]
    exact carried.bind (step b a List.mem_cons_self) fun b =>
      ih (fun b a mem => step b a (List.mem_cons_of_mem _ mem)) b

theorem mapM [LawfulMonad m] (carried : IsStepwise m C) {f : α → m β}
    (step : ∀ a ∈ as, C (f a)) : C (as.mapM f) := by
  induction as with
  | nil => exact carried.pure []
  | cons a as ih =>
    rw [List.forall_mem_cons] at step
    rw [List.mapM_cons]
    exact carried.bind step.1 fun _ => carried.bind (ih step.2) fun _ => carried.pure _

theorem forM (carried : IsStepwise m C) {f : α → m PUnit} (step : ∀ a ∈ as, C (f a)) :
    C (as.forM f) := by
  induction as with
  | nil => exact carried.pure _
  | cons a as ih =>
    rw [List.forall_mem_cons] at step
    exact carried.bind step.1 fun _ => ih step.2

theorem filterMapM (carried : IsStepwise m C) {f : α → m (Option β)}
    (step : ∀ a ∈ as, C (f a)) : C (as.filterMapM f) := by
  -- the loop carries what it has kept so far, whatever that is
  have loop : ∀ taken, C (List.filterMapM.loop f as taken) := by
    induction as with
    | nil => exact fun taken => carried.pure taken.reverse
    | cons a as ih =>
      rw [List.forall_mem_cons] at step
      intro taken
      refine carried.bind step.1 fun kept? => ?_
      cases kept? with
      | none => exact ih step.2 taken
      | some b => exact ih step.2 (b :: taken)
  exact loop []

end IsStepwise

end Stepwise

/-! ### Steps on a state -/

namespace Steps

variable {σ ε α β : Type} {m : ExceptT ε (StateM σ) α} {f : α → ExceptT ε (StateM σ) β}
  {a : α} {fault : ε} {s s' : σ}

/-- What steps yield, and the state after them. -/
def runOn (m : ExceptT ε (StateM σ) α) (s : σ) : Except ε α × σ := StateT.run (ExceptT.run m) s

/-- A step runs first, and the others run with what it yields. -/
theorem runOn_bind : runOn (m >>= f) s = match runOn m s with
    | (.ok a, s') => runOn (f a) s'
    | (.error fault, s') => (.error fault, s') := by
  change (match runOn m s with
    | (r, s') => (ExceptT.bindCont f r : StateM σ _).run s') = _
  cases runOn m s with
  | mk r s' => cases r <;> rfl

theorem runOn_bind_ok (h : runOn m s = (.ok a, s')) : runOn (m >>= f) s = runOn (f a) s' := by
  rw [runOn_bind, h]

theorem runOn_bind_error (h : runOn m s = (.error fault, s')) :
    runOn (m >>= f) s = (.error fault, s') := by
  rw [runOn_bind, h]

/-- Where the whole ran to its end, so did the first step. -/
theorem exists_of_runOn_bind {b : β} (h : runOn (m >>= f) s = (.ok b, s')) :
    ∃ a mid, runOn m s = (.ok a, mid) ∧ runOn (f a) mid = (.ok b, s') := by
  rw [runOn_bind] at h
  split at h
  · next a mid first => exact ⟨a, mid, first, h⟩
  · next fault mid first => cases h

/-- However steps end, the state after them stands in a relation to the one before them. -/
def Leads (R : σ → σ → Prop) (m : ExceptT ε (StateM σ) α) : Prop := ∀ s, R s (runOn m s).2

theorem Leads.bind {R : σ → σ → Prop} (trans : ∀ s s' s'', R s s' → R s' s'' → R s s'')
    (first : Leads R m) (rest : ∀ a, Leads R (f a)) : Leads R (m >>= f) := by
  intro s
  have here := first s
  rw [runOn_bind]
  split
  · next a s' ran =>
    rw [ran] at here
    exact trans _ _ _ here (rest a s')
  · next fault s' ran =>
    rw [ran] at here
    exact here

/-- Every fault with which steps stop is of a kind, whatever the state before them is. -/
def StopsOnly (P : ε → Prop) (m : ExceptT ε (StateM σ) α) : Prop :=
  ∀ s fault, (runOn m s).1 = .error fault → P fault

/-- The steps after the first are asked only for what it yields. -/
theorem StopsOnly.bind_of_runOn {P : ε → Prop} (first : StopsOnly P m)
    (rest : ∀ a s s', runOn m s = (.ok a, s') → StopsOnly P (f a)) : StopsOnly P (m >>= f) := by
  intro s fault h
  rw [runOn_bind] at h
  split at h
  · next a s' ran => exact rest a s s' ran s' fault h
  · next other s' ran =>
    cases h
    exact first s fault (congrArg Prod.fst ran)

end Steps

/-! ### What has been told since -/

/-- What has been told since is of a kind. -/
def TellsMore (P : Notice → Prop) (told told' : List Notice) : Prop :=
  ∃ more, told' = told ++ more ∧ ∀ n ∈ more, P n

namespace TellsMore

variable {P : Notice → Prop} {told told' told'' : List Notice}

theorem refl (told : List Notice) : TellsMore P told told :=
  ⟨[], (List.append_nil told).symm, fun _ mem => absurd mem List.not_mem_nil⟩

theorem trans : TellsMore P told told' → TellsMore P told' told'' → TellsMore P told told'' := by
  rintro ⟨more, rfl, each⟩ ⟨later, rfl, each'⟩
  refine ⟨more ++ later, List.append_assoc .., fun n mem => ?_⟩
  exact (List.mem_append.1 mem).elim (each n) (each' n)

/-- What is never told is told as often as before. -/
theorem filter_eq {kind : Notice → Bool} (h : TellsMore (kind · = false) told told') :
    told'.filter kind = told.filter kind := by
  obtain ⟨more, rfl, each⟩ := h
  have none : more.filter kind = [] :=
    List.filter_eq_nil_iff.2 fun n mem => Bool.eq_false_iff.1 (each n mem)
  rw [List.filter_append, none, List.append_nil]

end TellsMore

end PackPlan
