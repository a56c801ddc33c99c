import Mathlib.Tactic.Tauto

/-!
# Steps that may fail

What is known of the parts of a computation when the whole of it has succeeded, or has failed.

## Main results

* `exists_of_bind_ok`, `exists_of_ite_bind_ok`, `exists_of_bind_error` — one step before another
* `eq_ok_of_mapError`, `exists_of_mapError` — a step whose fault is put in other words
* `eq_ok_of_toOption` — a step of which only the value is looked at
* `exists_of_mem_mapM_ok`, `mapM_map_eq_ok`, `exists_of_mapM_error` — a step for each item of a list
* `mem_filterM`, `exists_of_mem_filterM`, `exists_of_filterM_error`, `exists_filterM_ok`,
  `filterM_of_forall` — a test of each item of a list
-/

namespace PackPlan

variable {ε ε' α β : Type} {x : Except ε α} {f : α → Except ε β} {p : α → Except ε Bool}
  {as kept taken : List α} {bs : List β} {a : α} {b : β} {e : ε}

theorem exists_of_bind_ok (h : x >>= f = .ok b) : ∃ a, x = .ok a ∧ f a = .ok b := by
  cases x with
  | error e => cases h
  | ok a => exact ⟨a, rfl, h⟩

/-- A step that depends on a condition. -/
theorem exists_of_ite_bind_ok {c : Prop} [Decidable c] {y : Except ε α}
    (h : (if c then x >>= f else y >>= f) = .ok b) :
    ∃ a, (if c then x else y) = .ok a ∧ f a = .ok b := by
  split at h
  · next yes => exact (exists_of_bind_ok h).imp fun a step => by rwa [if_pos yes]
  · next no => exact (exists_of_bind_ok h).imp fun a step => by rwa [if_neg no]

theorem exists_of_bind_error (h : x >>= f = .error e) :
    x = .error e ∨ ∃ a, x = .ok a ∧ f a = .error e := by
  cases x with
  | error e' => cases h; exact .inl rfl
  | ok a => exact .inr ⟨a, rfl, h⟩

theorem eq_ok_of_mapError {g : ε → ε'} (h : x.mapError g = .ok a) : x = .ok a := by
  cases x with
  | error e => cases h
  | ok a' => cases h; rfl

theorem exists_of_mapError {g : ε → ε'} {e' : ε'} (h : x.mapError g = .error e') :
    ∃ e, x = .error e ∧ g e = e' := by
  cases x with
  | error e => cases h; exact ⟨e, rfl, rfl⟩
  | ok a => cases h

theorem eq_ok_of_toOption (h : x.toOption = some a) : x = .ok a := by
  cases x with
  | error e => cases h
  | ok a' => cases h; rfl

/-- What steps yielded together, one of them yielded. -/
theorem exists_of_mem_mapM_ok (h : as.mapM f = .ok bs) (mem : b ∈ bs) : ∃ a ∈ as, f a = .ok b := by
  induction as generalizing bs with
  | nil => cases h; exact absurd mem List.not_mem_nil
  | cons a as ih =>
    rw [List.mapM_cons] at h
    obtain ⟨first, here, h⟩ := exists_of_bind_ok h
    obtain ⟨later, rest, h⟩ := exists_of_bind_ok h
    cases h
    rcases List.mem_cons.1 mem with rfl | member
    · exact ⟨a, List.mem_cons_self, here⟩
    · obtain ⟨a', there, step⟩ := ih rest member
      exact ⟨a', List.mem_cons_of_mem a there, step⟩

/-- Steps that each succeed, succeed together. -/
theorem mapM_map_eq_ok {γ : Type} {g : γ → α} {r : γ → β} {cs : List γ}
    (steps : ∀ c ∈ cs, f (g c) = .ok (r c)) : (cs.map g).mapM f = .ok (cs.map r) := by
  induction cs with
  | nil => rfl
  | cons c cs ih =>
    rw [List.forall_mem_cons] at steps
    rw [List.map_cons, List.mapM_cons, steps.1, ih steps.2]
    rfl

theorem exists_of_mapM_error (h : as.mapM f = .error e) : ∃ a ∈ as, f a = .error e := by
  induction as with
  | nil => cases h
  | cons a as ih =>
    rw [List.mapM_cons] at h
    rcases exists_of_bind_error h with here | ⟨first, -, h⟩
    · exact ⟨a, List.mem_cons_self, here⟩
    · rcases exists_of_bind_error h with rest | ⟨later, -, h⟩
      · obtain ⟨a', there, step⟩ := ih rest
        exact ⟨a', List.mem_cons_of_mem a there, step⟩
      · cases h

theorem mem_filterAuxM (h : as.filterAuxM p taken = .ok kept) :
    a ∈ kept ↔ a ∈ taken ∨ a ∈ as ∧ p a = .ok true := by
  induction as generalizing taken with
  | nil => cases h; simp
  | cons first as ih =>
    rw [List.filterAuxM] at h
    obtain ⟨keep, here, h⟩ := exists_of_bind_ok h
    rw [ih h, List.mem_cons, or_and_right]
    have same : a = first → p a = .ok keep := fun eq => eq ▸ here
    cases keep with
    | false =>
      have dropped : ¬(a = first ∧ p a = .ok true) := by
        rintro ⟨eq, passed⟩
        rw [same eq] at passed
        cases passed
      rw [cond_false, or_iff_right dropped]
    | true =>
      rw [and_iff_left_of_imp same, cond_true, List.mem_cons]
      tauto

/-- Exactly what passes the test is kept. -/
theorem mem_filterM (h : as.filterM p = .ok kept) : a ∈ kept ↔ a ∈ as ∧ p a = .ok true := by
  rw [List.filterM] at h
  obtain ⟨backwards, aux, h⟩ := exists_of_bind_ok h
  cases h
  rw [List.mem_reverse, mem_filterAuxM aux, or_iff_right List.not_mem_nil]

theorem exists_of_mem_filterAuxM (h : as.filterAuxM p taken = .ok kept) (mem : a ∈ as) :
    ∃ keep, p a = .ok keep := by
  induction as generalizing taken with
  | nil => exact absurd mem List.not_mem_nil
  | cons first as ih =>
    rw [List.filterAuxM] at h
    obtain ⟨keep, here, rest⟩ := exists_of_bind_ok h
    rcases List.mem_cons.1 mem with rfl | later
    · exact ⟨keep, here⟩
    · exact ih rest later

/-- Where the test of all items succeeds, so does the test of each. -/
theorem exists_of_mem_filterM (h : as.filterM p = .ok kept) (mem : a ∈ as) :
    ∃ keep, p a = .ok keep := by
  rw [List.filterM] at h
  obtain ⟨backwards, aux, -⟩ := exists_of_bind_ok h
  exact exists_of_mem_filterAuxM aux mem

theorem exists_of_filterAuxM_error (h : as.filterAuxM p taken = .error e) :
    ∃ a ∈ as, p a = .error e := by
  induction as generalizing taken with
  | nil => cases h
  | cons a as ih =>
    rw [List.filterAuxM] at h
    rcases exists_of_bind_error h with here | ⟨keep, -, rest⟩
    · exact ⟨a, List.mem_cons_self, here⟩
    · obtain ⟨a', there, step⟩ := ih rest
      exact ⟨a', List.mem_cons_of_mem a there, step⟩

theorem exists_of_filterM_error (h : as.filterM p = .error e) : ∃ a ∈ as, p a = .error e := by
  rw [List.filterM] at h
  rcases exists_of_bind_error h with aux | ⟨backwards, -, h⟩
  · exact exists_of_filterAuxM_error aux
  · cases h

theorem filterAuxM_of_forall (passed : ∀ a ∈ as, p a = .ok true) :
    as.filterAuxM p taken = .ok (as.reverse ++ taken) := by
  induction as generalizing taken with
  | nil => rfl
  | cons a as ih =>
    rw [List.forall_mem_cons] at passed
    rw [List.filterAuxM, passed.1]
    change as.filterAuxM p (a :: taken) = _
    rw [ih passed.2, List.reverse_cons, List.append_assoc, List.singleton_append]

/-- Where all items pass the test, all are kept. -/
theorem filterM_of_forall (passed : ∀ a ∈ as, p a = .ok true) : as.filterM p = .ok as := by
  rw [List.filterM, filterAuxM_of_forall passed, List.append_nil]
  exact congrArg Except.ok (List.reverse_reverse as)

/-- Where the test of each item succeeds, so does the test of all. -/
theorem exists_filterM_ok (tests : ∀ a ∈ as, ∃ keep, p a = .ok keep) :
    ∃ kept, as.filterM p = .ok kept := by
  cases h : as.filterM p with
  | ok kept => exact ⟨kept, rfl⟩
  | error e =>
    obtain ⟨a, mem, failed⟩ := exists_of_filterM_error h
    obtain ⟨keep, passed⟩ := tests a mem
    rw [failed] at passed
    cases passed

end PackPlan
