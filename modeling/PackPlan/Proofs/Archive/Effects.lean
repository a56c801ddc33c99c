import PackPlan.Proofs.Archive.Indexing
import PackPlan.Proofs.Effects
import PackPlan.Proofs.Files.Moves
import PackPlan.Proofs.PathTable
import PackPlan.Proofs.Steady

/-!
# What indexing a directory leaves behind

Whatever the containers of a directory hold, indexing them warns of nothing, leaves a proper tree
proper, and does not depend on what was told before. In an index every record stands under its own
path.

## Main results

* `Containers.tellsOnly_index` — indexing warns of nothing
* `Containers.isProper_index` — a proper tree stays proper
* `Containers.isSteady_index` — what was told before makes no difference
* `Containers.isKeyed_of_run_index` — records stand under their own paths
* `Containers.run_index_facts` — all that together
-/

namespace PackPlan

namespace Containers

variable {reader : Reader} {overwrite : Bool} {d c legacy : FilePath} {pattern : String}
  {es : List Archive.Entry} {table table' : PathTable} {i i' : Index} {w w' : Workspace}
  {told told' : List Notice}

/-! ### What is told -/

theorem tellsOnly_rename {P : Notice → Prop} (legacy c : FilePath) (overwrite : Bool) :
    (rename legacy c overwrite).TellsOnly P := by
  refine (Job.tellsOnly_ask _).bind fun there => ?_
  split
  · exact (Job.tellsOnly_guardOverwrite _ _).bind fun _ => (Job.tellsOnly_change _).bind fun _ =>
      Job.tellsOnly_pure _
  · exact Job.tellsOnly_pure _

theorem tellsOnly_openContainer (reader : Reader) (overwrite : Bool) (c : FilePath) :
    (openContainer reader overwrite c).TellsOnly (·.isWarning = false) := by
  refine (Job.tellsOnly_ofExcept _).bind fun legacy => ?_
  refine (tellsOnly_rename legacy c overwrite).bind fun renamed => ?_
  have read : Job.TellsOnly (·.isWarning = false)
      (get >>= fun w : Workspace => Job.ofExcept (reader w.files c)) :=
    Job.tellsOnly_get_bind fun _ => Job.tellsOnly_ofExcept _
  have detail : ∀ text, (Job.tell (.detail text)).TellsOnly (·.isWarning = false) :=
    fun text => Job.tellsOnly_tell rfl
  split
  · exact (detail _).bind fun _ => read
  · exact read

theorem tellsOnly_addEntries (c : FilePath) (es : List Archive.Entry) (table : PathTable) :
    (addEntries c es table).TellsOnly (·.isWarning = false) := by
  induction es generalizing table with
  | nil => exact Attempt.tellsOnly_pure _
  | cons e es ih =>
    have detail : ∀ text, (Attempt.tell (.detail text)).TellsOnly (·.isWarning = false) :=
      fun text => Attempt.tellsOnly_tell rfl
    exact (Attempt.tellsOnly_ofExcept _).bind fun _ => (detail _).bind fun _ => ih _

/-- Indexing warns of nothing; what cannot be read is an error. -/
theorem tellsOnly_index (reader : Reader) (d : FilePath) (pattern : String) (overwrite : Bool) :
    (index reader d pattern overwrite).TellsOnly (·.isWarning = false) := by
  refine Job.tellsOnly_get_bind fun w => (Job.tellsOnly_ofExcept _).bind fun found => ?_
  refine Job.isStepwise_tellsOnly.foldlM (fun i c _ => ?_) ({} : Index)
  have complaint : ∀ text, (Job.tell (.error text)).TellsOnly (·.isWarning = false) :=
    fun text => Job.tellsOnly_tell rfl
  refine (tellsOnly_openContainer reader overwrite c).outcome.bind fun answer => ?_
  cases answer with
  | ok es =>
    exact (Job.tellsOnly_ofAttempt (tellsOnly_addEntries c es _)).bind fun _ =>
      Job.tellsOnly_pure _
  | error fault =>
    dsimp only
    split
    · exact (complaint _).bind fun _ => Job.tellsOnly_pure _
    · exact Job.tellsOnly_throw _

/-! ### What was told before -/

theorem isSteady_rename (legacy c : FilePath) (overwrite : Bool) :
    (rename legacy c overwrite).IsSteady := by
  refine (Job.isSteady_ask _).bind fun there => ?_
  split
  · exact (Job.isSteady_guardOverwrite _ _).bind fun _ => (Job.isSteady_change _).bind fun _ =>
      Job.isSteady_pure _
  · exact Job.isSteady_pure _

theorem isSteady_openContainer (reader : Reader) (overwrite : Bool) (c : FilePath) :
    (openContainer reader overwrite c).IsSteady := by
  refine (Job.isSteady_ofExcept _).bind fun legacy => ?_
  refine (isSteady_rename legacy c overwrite).bind fun renamed => ?_
  have read : Job.IsSteady (get >>= fun w : Workspace => Job.ofExcept (reader w.files c)) :=
    Job.isSteady_get_files_bind (f := fun t => Job.ofExcept (reader t c)) fun _ =>
      Job.isSteady_ofExcept _
  split
  · exact (Job.isSteady_tell _).bind fun _ => read
  · exact read

theorem isSteady_addEntries (c : FilePath) (es : List Archive.Entry) (table : PathTable) :
    (addEntries c es table).IsSteady := by
  induction es generalizing table with
  | nil => exact Attempt.isSteady_pure _
  | cons e es ih =>
    exact (Attempt.isSteady_ofExcept _).bind fun _ => (Attempt.isSteady_tell _).bind fun _ => ih _

/-- What was told before makes no difference to an index. -/
theorem isSteady_index (reader : Reader) (d : FilePath) (pattern : String) (overwrite : Bool) :
    (index reader d pattern overwrite).IsSteady := by
  refine Job.isSteady_get_files_bind (f := fun t => Job.ofExcept (find t d pattern) >>= fun found =>
    found.foldlM (addContainer reader overwrite) {}) fun t => ?_
  refine (Job.isSteady_ofExcept _).bind fun found => ?_
  refine Job.isStepwise_isSteady.foldlM (fun i c _ => ?_) ({} : Index)
  refine (isSteady_openContainer reader overwrite c).outcome.bind fun answer => ?_
  cases answer with
  | ok es =>
    exact (Job.isSteady_ofAttempt (isSteady_addEntries c es _)).bind fun _ => Job.isSteady_pure _
  | error fault =>
    dsimp only
    split
    · exact (Job.isSteady_tell _).bind fun _ => Job.isSteady_pure _
    · exact Job.isSteady_throw _

/-! ### The files -/

/-- Trees that are both proper, if the first is. -/
def KeepsProper (t t' : FileTree) : Prop := t.IsProper → t'.IsProper

theorem KeepsProper.refl (t : FileTree) : KeepsProper t t := id

theorem KeepsProper.trans (t t' t'' : FileTree) (first : KeepsProper t t')
    (second : KeepsProper t' t'') : KeepsProper t t'' := second ∘ first

theorem changesBy_openContainer (reader : Reader) (overwrite : Bool) (c : FilePath) :
    (openContainer reader overwrite c).ChangesBy KeepsProper := by
  have still : ∀ {α : Type} {m : Job α}, m.IsStill → m.ChangesBy KeepsProper :=
    fun h => h.changesBy .refl
  have moved : ∀ legacy, (rename legacy c overwrite).ChangesBy KeepsProper := by
    intro legacy
    refine (still fun w => by rw [Job.run_ask]).bind .trans fun there => ?_
    split
    · refine (still (Job.isStill_guardOverwrite _ _)).bind .trans fun _ => ?_
      refine (Job.changesBy_change .refl fun t t' done => ?_).bind .trans fun _ =>
        still (Job.isStill_pure _)
      exact fun proper => proper.move done
    · exact still (Job.isStill_pure _)
  refine (still (Job.isStill_ofExcept _)).bind .trans fun legacy => ?_
  refine (moved legacy).bind_isStill fun renamed => ?_
  have read : Job.IsStill (get >>= fun w : Workspace => Job.ofExcept (reader w.files c)) :=
    Job.isStill_get_bind fun _ => Job.isStill_ofExcept _
  split
  · exact (Job.isStill_tell _).bind fun _ => read
  · exact read

theorem changesBy_index (reader : Reader) (d : FilePath) (pattern : String) (overwrite : Bool) :
    (index reader d pattern overwrite).ChangesBy KeepsProper := by
  refine Job.changesBy_get_bind fun w => ?_
  refine ((Job.isStill_ofExcept _).changesBy .refl).bind .trans fun found => ?_
  refine (Job.isStepwise_changesBy .refl .trans).foldlM (fun i c _ => ?_) ({} : Index)
  refine (changesBy_openContainer reader overwrite c).outcome.bind_isStill fun answer => ?_
  cases answer with
  | ok es => exact (Job.isStill_ofAttempt _).bind fun _ => Job.isStill_pure _
  | error fault =>
    dsimp only
    split
    · exact (Job.isStill_tell _).bind fun _ => Job.isStill_pure _
    · exact Job.isStill_throw _

/-- A proper tree stays proper, however the indexing ends. -/
theorem isProper_index (proper : w.files.IsProper) (reader : Reader) (d : FilePath)
    (pattern : String) (overwrite : Bool) :
    ((index reader d pattern overwrite).run w).2.files.IsProper :=
  changesBy_index reader d pattern overwrite w proper

/-! ### The records -/

theorem eq_of_runFrom_addEntries (h : (addEntries c es table).runFrom told = (.ok table', told')) :
    table' = (recordsOf c es).foldl (fun t r => (t.add r.path r).1) table := by
  induction es generalizing table told with
  | nil =>
    cases h
    rfl
  | cons e es ih =>
    rw [addEntries] at h
    obtain ⟨numbers, mid, -, h⟩ := Attempt.exists_of_runFrom_bind h
    rw [Attempt.runFrom_bind_ok (Attempt.runFrom_tell _)] at h
    exact ih h

theorem isKeyed_of_run_addContainer (keyed : i.entries.IsKeyed)
    (h : (addContainer reader overwrite i c).run w = (.ok i', w')) : i'.entries.IsKeyed := by
  obtain ⟨answer, mid, -, h⟩ := Job.exists_of_run_bind h
  cases answer with
  | ok es =>
    obtain ⟨table, last, added, h⟩ := Job.exists_of_run_bind h
    cases h
    rw [Job.run_ofAttempt] at added
    have told := Prod.ext_iff.1 added
    rw [eq_of_runFrom_addEntries (Prod.ext told.1 rfl)]
    exact keyed.foldl_add _
  | error fault =>
    dsimp only at h
    split at h
    · rw [Job.run_bind_ok (Job.run_tell _)] at h
      cases h
      exact keyed
    · cases h

/-- In an index every record stands under its own path. -/
theorem isKeyed_of_run_index (h : (index reader d pattern overwrite).run w = (.ok i, w')) :
    i.entries.IsKeyed := by
  rw [index, Job.run_get_bind] at h
  obtain ⟨found, mid, -, h⟩ := Job.exists_of_run_bind h
  -- a container adds records under their paths, so that an index stays keyed
  have each : ∀ (found : List FilePath) {i : Index} {w : Workspace}, i.entries.IsKeyed →
      ∀ {i' w'}, (found.foldlM (addContainer reader overwrite) i).run w = (.ok i', w') →
        i'.entries.IsKeyed := by
    intro found
    induction found with
    | nil =>
      intro i w keyed i' w' h
      cases h
      exact keyed
    | cons c found ih =>
      intro i w keyed i' w' h
      rw [List.foldlM_cons] at h
      obtain ⟨next, mid, step, h⟩ := Job.exists_of_run_bind h
      exact ih (isKeyed_of_run_addContainer keyed step) h
  exact each found .empty h

/-- What is known of an index, and of what is left behind, whatever was told before. -/
theorem run_index_facts {t : FileTree} (proper : t.IsProper)
    (h : (index reader d pattern overwrite).run ⟨t, told⟩ = (.ok i, w')) :
    i.entries.IsKeyed ∧ w'.files.IsProper ∧
      w'.notices.filter (·.isWarning) = told.filter (·.isWarning) ∧
      ∀ told', ((index reader d pattern overwrite).run ⟨t, told'⟩).1 = .ok i := by
  have keyed := isKeyed_of_run_index h
  have kept := isProper_index (w := ⟨t, told⟩) proper reader d pattern overwrite
  have quiet := (tellsOnly_index reader d pattern overwrite).filter_eq ⟨t, told⟩
  rw [h] at kept quiet
  refine ⟨keyed, kept, quiet, fun told' => ?_⟩
  have same : (Workspace.mk t told').files = (Workspace.mk t told).files := rfl
  rw [(isSteady_index reader d pattern overwrite).run_fst same, h]

end Containers

end PackPlan
