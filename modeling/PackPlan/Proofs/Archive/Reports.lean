import Mathlib.Data.List.Sort
import PackPlan.Proofs.Archive.Opening
import PackPlan.Proofs.PathTable

/-!
# Reports on the containers of a directory

Containers are opened one after the other, and each gives an answer. The index is what the answers
say, and it does not depend on anything else; a job that comes to its end a second time gets the
same answers.

## Main definitions

* `Containers.Report` — the answers of containers, in order
* `Containers.openAll` — the answers of the containers of some stems, and the files after them
* `Containers.Index.ofReport` — the index that a report makes
* `Containers.Continues` — an answer after which a job goes on

## Main results

* `Containers.Moved.openAll`, `Containers.moved_openAll` — what all containers together change
* `Containers.openAll_again` — containers that have been opened give the same answers again
* `Containers.run_foldlM_of_continues`, `Containers.run_foldlM_of_stops` — how a job goes through
  containers
* `Containers.Index.get?_ofReport` — which record the index has of a path
-/

namespace PackPlan

namespace Containers

variable {reader : Reader} {overwrite : Bool} {d c : FilePath} {base : Location}
  {t t' : FileTree} {stem other path : String} {stems stems' : List String} {fault : Fault}
  {w : Workspace} {moved : String → Prop} {i : Index} {es : List Archive.Entry}
  {table : PathTable} {told : List Notice}

/-! ### All containers -/

/-- The answers of containers, in order. -/
abbrev Report := List (FilePath × Except Fault (List Archive.Entry))

/-- The answers of the containers of some stems, one after the other, and the files after them. -/
def openAll (reader : Reader) (overwrite : Bool) (d : FilePath) (base : Location) :
    FileTree → List String → Report × FileTree
  | t, [] => ([], t)
  | t, stem :: stems =>
    let first := opened reader overwrite d base t stem
    let others := openAll reader overwrite d base first.2 stems
    ((container d stem, first.1) :: others.1, others.2)

theorem openAll_append (t : FileTree) (stems stems' : List String) :
    openAll reader overwrite d base t (stems ++ stems') =
      ((openAll reader overwrite d base t stems).1 ++
          (openAll reader overwrite d base (openAll reader overwrite d base t stems).2 stems').1,
        (openAll reader overwrite d base
          (openAll reader overwrite d base t stems).2 stems').2) := by
  induction stems generalizing t with
  | nil => rfl
  | cons stem stems ih => rw [List.cons_append, openAll, ih]; rfl

/-- What holds of each container when it is opened holds of the answers. -/
theorem forall₂_openAll {holds : String → Except Fault (List Archive.Entry) → Prop}
    (each : ∀ front stem back, stems = front ++ stem :: back → holds stem
      (opened reader overwrite d base (openAll reader overwrite d base t front).2 stem).1) :
    List.Forall₂ (fun stem a => a.1 = container d stem ∧ holds stem a.2) stems
      (openAll reader overwrite d base t stems).1 := by
  induction stems generalizing t with
  | nil => exact .nil
  | cons stem stems ih =>
    refine .cons ⟨rfl, each [] stem stems rfl⟩ (ih fun front other back split => ?_)
    exact each (stem :: front) other back (by rw [split]; rfl)

/-- Opening a container leaves the others what they are. -/
theorem isContainer_opened (reader : Reader) (overwrite : Bool) (proper : t.IsProper)
    (h : IsContainer t d base stem) (apart : other ≠ stem) (h' : IsContainer t d base other) :
    IsContainer (opened reader overwrite d base t stem).2 d base other :=
  ((Moved.none proper).opened h id).isContainer h' fun done =>
    apart (done.resolve_left id).1

theorem isProper_opened (reader : Reader) (overwrite : Bool) (proper : t.IsProper)
    (h : IsContainer t d base stem) :
    (opened reader overwrite d base t stem).2.IsProper :=
  ((Moved.none proper).opened h id).proper

/-- The containers that come after one are containers still after it has been opened. -/
theorem isContainer_of_mem (reader : Reader) (overwrite : Bool) (proper : t.IsProper)
    (each : ∀ other ∈ stem :: stems, IsContainer t d base other) (fresh : stem ∉ stems) :
    ∀ other ∈ stems, IsContainer (opened reader overwrite d base t stem).2 d base other := by
  intro other mem
  rw [List.forall_mem_cons] at each
  exact isContainer_opened reader overwrite proper each.1 (fun same => fresh (same ▸ mem))
    (each.2 other mem)

/-- What all containers together change. -/
theorem Moved.openAll (h : Moved t base moved t')
    (each : ∀ stem ∈ stems, IsContainer t d base stem ∧ ¬moved stem) (distinct : stems.Nodup) :
    Moved t base (fun other => moved other ∨ other ∈ stems ∧ Moves overwrite d t base other)
      (openAll reader overwrite d base t' stems).2 := by
  induction stems generalizing moved t' with
  | nil => exact h.congr fun other => by simp
  | cons stem stems ih =>
    rw [List.forall_mem_cons] at each
    obtain ⟨⟨container, fresh⟩, later⟩ := each
    obtain ⟨new, distinct⟩ := List.nodup_cons.1 distinct
    refine (ih (h.opened container fresh) (fun other mem => ?_) distinct).congr fun other => ?_
    · obtain ⟨container, fresh⟩ := later other mem
      refine ⟨container, ?_⟩
      rintro (done | ⟨rfl, -⟩)
      · exact fresh done
      · exact new mem
    · rw [List.mem_cons, or_and_right, or_assoc]
      refine or_congr_right (or_congr_left (and_congr_right ?_))
      rintro rfl
      exact Iff.rfl

/-- What all containers together change where none has been moved. -/
theorem moved_openAll (reader : Reader) (overwrite : Bool) (proper : t.IsProper)
    (each : ∀ stem ∈ stems, IsContainer t d base stem) (distinct : stems.Nodup) :
    Moved t base (fun other => other ∈ stems ∧ Moves overwrite d t base other)
      (openAll reader overwrite d base t stems).2 :=
  ((Moved.none proper).openAll (fun stem mem => ⟨each stem mem, id⟩) distinct).congr fun _ =>
    iff_of_eq (false_or _)

/-- They leave another one as it is. -/
theorem node?_openAll_of_notMem (reader : Reader) (overwrite : Bool) (proper : t.IsProper)
    (each : ∀ stem ∈ stems, IsContainer t d base stem) (distinct : stems.Nodup)
    (fresh : stem ∉ stems) :
    (openAll reader overwrite d base t stems).2.node? (legacyPlace base stem) =
        t.node? (legacyPlace base stem) ∧
      (openAll reader overwrite d base t stems).2.node? (ownPlace base stem) =
        t.node? (ownPlace base stem) :=
  (moved_openAll reader overwrite proper each distinct).node?_of_not fun done => fresh done.1

/-- Containers that have been opened give the same answers again, and stay as they are. -/
theorem openAll_again (reads : ReadsContent reader) (proper : t.IsProper)
    (each : ∀ stem ∈ stems, IsContainer t d base stem) (distinct : stems.Nodup)
    (again : ∀ stem ∈ stems, IsStem t' d base stem ∧
      t'.node? (legacyPlace base stem) =
        (openAll reader overwrite d base t stems).2.node? (legacyPlace base stem) ∧
      t'.node? (ownPlace base stem) =
        (openAll reader overwrite d base t stems).2.node? (ownPlace base stem)) :
    openAll reader overwrite d base t' stems =
      ((openAll reader overwrite d base t stems).1, t') := by
  induction stems generalizing t with
  | nil => rfl
  | cons stem stems ih =>
    have container := each stem List.mem_cons_self
    rw [List.forall_mem_cons] at again
    obtain ⟨⟨isStem, old, new⟩, again⟩ := again
    obtain ⟨fresh, distinct⟩ := List.nodup_cons.1 distinct
    have proper' := isProper_opened reader overwrite proper container
    have later := isContainer_of_mem reader overwrite proper each fresh
    -- the containers that come after it leave the first one as it is
    obtain ⟨stillOld, stillNew⟩ :=
      node?_openAll_of_notMem reader overwrite proper' later distinct fresh
    have first := opened_again reads proper container isStem (old.trans stillOld)
      (new.trans stillNew)
    rw [openAll, openAll, first, ih proper' later distinct again]

/-! ### The index -/

/-- The index with the answer of one more container. -/
def Index.enter (i : Index) (a : FilePath × Except Fault (List Archive.Entry)) : Index :=
  match a.2 with
  | .ok es =>
    { i with
      entries := (recordsOf a.1 es).foldl (fun t r => (t.add r.path r).1) i.entries
      containers := i.containers ++ [a.1] }
  | .error _ => { i with failures := i.failures ++ [a.1.text] }

/-- The index that a report makes. -/
def Index.ofReport (answers : Report) : Index := answers.foldl Index.enter {}

/-- The records of what lies in a container, if it was read. -/
def answerRecords (a : FilePath × Except Fault (List Archive.Entry)) : List Record :=
  match a.2 with
  | .ok es => recordsOf a.1 es
  | .error _ => []

/-- The containers that were read. -/
def Report.read (answers : Report) : List FilePath :=
  (answers.filter (·.2.isOk)).map Prod.fst

/-- The containers that were not. -/
def Report.unread (answers : Report) : List FilePath :=
  (answers.filter (!·.2.isOk)).map Prod.fst

theorem containers_foldl_enter (i : Index) (answers : Report) :
    (answers.foldl Index.enter i).containers = i.containers ++ Report.read answers := by
  induction answers generalizing i with
  | nil => exact (List.append_nil _).symm
  | cons a answers ih =>
    obtain ⟨c, _ | es⟩ := a
    · exact ih _
    · rw [List.foldl_cons, ih]
      exact List.append_assoc _ _ _

theorem failures_foldl_enter (i : Index) (answers : Report) :
    (answers.foldl Index.enter i).failures =
      i.failures ++ (Report.unread answers).map FilePath.text := by
  induction answers generalizing i with
  | nil => exact (List.append_nil _).symm
  | cons a answers ih =>
    obtain ⟨c, _ | es⟩ := a
    · rw [List.foldl_cons, ih]
      exact List.append_assoc _ _ _
    · exact ih _

theorem get?_foldl_enter (i : Index) (answers : Report) (path : String) :
    (answers.foldl Index.enter i).entries.get? path =
      (i.entries.get? path).or ((answers.flatMap answerRecords).find? (·.path = path)) := by
  induction answers generalizing i with
  | nil => exact (Option.or_none).symm
  | cons a answers ih =>
    rw [List.foldl_cons, ih, List.flatMap_cons, List.find?_append, ← Option.or_assoc]
    obtain ⟨c, _ | es⟩ := a
    · simp [Index.enter, answerRecords]
    · rw [Index.enter]
      dsimp only
      rw [PathTable.get?_foldl_add]
      rfl

namespace Index

theorem containers_ofReport (answers : Report) :
    (ofReport answers).containers = Report.read answers := by
  rw [ofReport, containers_foldl_enter, List.nil_append]

theorem failures_ofReport (answers : Report) :
    (ofReport answers).failures = (Report.unread answers).map FilePath.text := by
  rw [ofReport, failures_foldl_enter, List.nil_append]

/-- The first record of a path counts. -/
theorem get?_ofReport (answers : Report) (path : String) : (ofReport answers).entries.get? path =
    (answers.flatMap answerRecords).find? (·.path = path) := by
  rw [ofReport, get?_foldl_enter, Table.get?_empty, Option.none_or]

end Index

/-! ### The job -/

/-- The numbers of an entry can be written. -/
def IsWritable (c : FilePath) (e : Archive.Entry) : Prop :=
  ∃ text, numbersText [(recordOf c e).payloadOffset, (recordOf c e).payloadSize,
    (recordOf c e).headerOffset, (recordOf c e).headerSize] = .ok text

/-- A job goes on after an answer: entries whose numbers can be written, or a fault of the
files. -/
def Continues (a : FilePath × Except Fault (List Archive.Entry)) : Prop :=
  match a.2 with
  | .ok es => ∀ e ∈ es, IsWritable a.1 e
  | .error fault => fault.family = .system

/-- Entries of which one has a number that cannot be written stop a job. -/
theorem runFrom_addEntries_stops (c : FilePath) (table : PathTable) (told : List Notice)
    (long : ¬∀ e ∈ es, IsWritable c e) :
    ∃ told', (addEntries c es table).runFrom told = (.error .longNumber, told') := by
  induction es generalizing table told with
  | nil => exact absurd (fun e mem => absurd mem List.not_mem_nil) long
  | cons e es ih =>
    rw [addEntries]
    cases written : numbersText [(recordOf c e).payloadOffset, (recordOf c e).payloadSize,
        (recordOf c e).headerOffset, (recordOf c e).headerSize] with
    | error fault =>
      have only : fault = .longNumber := by
        rw [numbersText] at written
        split at written
        · cases written
        · exact (Except.error.inj written).symm
      exact ⟨told, by rw [Attempt.runFrom_bind_error (Attempt.runFrom_ofExcept _), only]⟩
    | ok text =>
      rw [Attempt.runFrom_bind_ok (Attempt.runFrom_ofExcept _),
        Attempt.runFrom_bind_ok (Attempt.runFrom_tell _)]
      refine ih _ _ fun later => long ?_
      rw [List.forall_mem_cons]
      exact ⟨⟨text, written⟩, later⟩

theorem run_addContainer_long {w' : Workspace}
    (opening : (openContainer reader overwrite c).run w = (.ok es, w'))
    (long : (addEntries c es i.entries).runFrom w'.notices = (.error fault, told)) :
    (addContainer reader overwrite i c).run w = (.error fault, { w' with notices := told }) := by
  have gathered : (Job.ofAttempt (addEntries c es i.entries)).run w' =
      (.error fault, { w' with notices := told }) := by
    rw [Job.run_ofAttempt, long]
  rw [addContainer, Job.run_bind_ok (Job.run_outcome _), opening]
  dsimp only
  rw [Job.run_bind_error gathered]

/-- What a container is opened to decides how the job goes on: with the answer in the index, or
with a fault. -/
theorem run_addContainer_cases {answer : Except Fault (List Archive.Entry)} {w' : Workspace}
    (opening : (openContainer reader overwrite c).run w = (answer, w')) :
    (Continues (c, answer) ∧ ∃ told, (addContainer reader overwrite i c).run w =
      (.ok (i.enter (c, answer)), { w' with notices := told })) ∨
    (¬Continues (c, answer) ∧ ∃ fault told, (addContainer reader overwrite i c).run w =
      (.error fault, { w' with notices := told }) ∧
        (fault = .longNumber ∨ answer = .error fault)) := by
  by_cases goes : Continues (c, answer)
  · refine .inl ⟨goes, ?_⟩
    cases answer with
    | error fault => exact ⟨_, run_addContainer_failed opening goes⟩
    | ok es =>
      obtain ⟨details, -, added⟩ := runFrom_addEntries c i.entries w'.notices goes
      exact ⟨_, run_addContainer_read opening added⟩
  · refine .inr ⟨goes, ?_⟩
    cases answer with
    | error fault => exact ⟨fault, _, run_addContainer_stopped opening goes, .inr rfl⟩
    | ok es =>
      obtain ⟨told, long⟩ := runFrom_addEntries_stops c i.entries w'.notices goes
      exact ⟨_, told, run_addContainer_long opening long, .inl rfl⟩

theorem run_addContainer_of_continues (h : IsContainer w.files d base stem)
    (goes : Continues (container d stem, (opened reader overwrite d base w.files stem).1)) :
    ∃ told, (addContainer reader overwrite i (container d stem)).run w =
      (.ok (i.enter (container d stem, (opened reader overwrite d base w.files stem).1)),
        ⟨(opened reader overwrite d base w.files stem).2, told⟩) := by
  obtain ⟨_, opening⟩ := run_openContainer_eq reader overwrite h
  obtain ⟨-, step⟩ | ⟨stops, -⟩ := run_addContainer_cases opening (i := i)
  · exact step
  · exact absurd goes stops

theorem run_addContainer_of_stops (h : IsContainer w.files d base stem)
    (stops : ¬Continues (container d stem, (opened reader overwrite d base w.files stem).1)) :
    ∃ fault told, (addContainer reader overwrite i (container d stem)).run w =
      (.error fault, ⟨(opened reader overwrite d base w.files stem).2, told⟩) ∧
        (fault = .longNumber ∨
          (opened reader overwrite d base w.files stem).1 = .error fault) := by
  obtain ⟨_, opening⟩ := run_openContainer_eq reader overwrite h
  obtain ⟨goes, -⟩ | ⟨-, step⟩ := run_addContainer_cases opening (i := i)
  · exact absurd goes stops
  · exact step

/-- Where a job goes on after all answers, the index is what they say. -/
theorem run_foldlM_of_continues (proper : w.files.IsProper)
    (each : ∀ stem ∈ stems, IsContainer w.files d base stem) (distinct : stems.Nodup)
    (goes : ∀ a ∈ (openAll reader overwrite d base w.files stems).1, Continues a) :
    ∃ told, ((stems.map (container d)).foldlM (addContainer reader overwrite) i).run w =
      (.ok ((openAll reader overwrite d base w.files stems).1.foldl Index.enter i),
        ⟨(openAll reader overwrite d base w.files stems).2, told⟩) := by
  induction stems generalizing w i with
  | nil => exact ⟨w.notices, rfl⟩
  | cons stem stems ih =>
    obtain ⟨fresh, distinct⟩ := List.nodup_cons.1 distinct
    have here := each stem List.mem_cons_self
    have later := isContainer_of_mem reader overwrite proper each fresh
    rw [openAll, List.forall_mem_cons] at goes
    obtain ⟨told, step⟩ := run_addContainer_of_continues here goes.1 (i := i)
    obtain ⟨told', run⟩ := ih (w := ⟨_, told⟩) (isProper_opened reader overwrite proper here)
      later distinct goes.2 (i := i.enter _)
    refine ⟨told', ?_⟩
    rw [List.map_cons, List.foldlM_cons, Job.run_bind_ok step, run]
    rfl

/-- Where it does not, it stops at the first answer after which it does not. -/
theorem run_foldlM_of_stops (proper : w.files.IsProper)
    (each : ∀ stem ∈ stems, IsContainer w.files d base stem) (distinct : stems.Nodup)
    (stops : ¬∀ a ∈ (openAll reader overwrite d base w.files stems).1, Continues a) :
    ∃ front stem back fault told, stems = front ++ stem :: back ∧
      ((stems.map (container d)).foldlM (addContainer reader overwrite) i).run w =
        (.error fault, ⟨(openAll reader overwrite d base w.files (front ++ [stem])).2, told⟩) ∧
      ¬Continues (container d stem, (opened reader overwrite d base
        (openAll reader overwrite d base w.files front).2 stem).1) ∧
      (fault = .longNumber ∨ (opened reader overwrite d base
        (openAll reader overwrite d base w.files front).2 stem).1 = .error fault) := by
  induction stems generalizing w i with
  | nil => exact absurd (fun a mem => absurd mem List.not_mem_nil) stops
  | cons stem stems ih =>
    obtain ⟨fresh, distinct⟩ := List.nodup_cons.1 distinct
    have here := each stem List.mem_cons_self
    have later := isContainer_of_mem reader overwrite proper each fresh
    rw [List.map_cons, List.foldlM_cons]
    by_cases goes : Continues (container d stem, (opened reader overwrite d base w.files stem).1)
    · obtain ⟨told, step⟩ := run_addContainer_of_continues here goes (i := i)
      rw [openAll, List.forall_mem_cons] at stops
      obtain ⟨front, last, back, fault, told', rfl, run, cause⟩ := ih (w := ⟨_, told⟩)
        (isProper_opened reader overwrite proper here) later distinct
        (fun rest => stops ⟨goes, rest⟩) (i := i.enter _)
      exact ⟨stem :: front, last, back, fault, told', rfl,
        (Job.run_bind_ok step).trans run, cause⟩
    · obtain ⟨fault, told, step, cause⟩ := run_addContainer_of_stops here goes (i := i)
      exact ⟨[], stem, stems, fault, told, rfl, Job.run_bind_error step, goes, cause⟩

theorem run_index_of_ok {pattern : String} {paths : List FilePath}
    (searched : find w.files d pattern = .ok paths) :
    (index reader d pattern overwrite).run w =
      (paths.foldlM (addContainer reader overwrite) {}).run w := by
  rw [index, Job.run_get_bind, searched, Job.run_bind_ok (Job.run_ofExcept _)]

theorem run_index_of_error {pattern : String}
    (searched : find w.files d pattern = .error fault) :
    (index reader d pattern overwrite).run w = (.error fault, w) := by
  rw [index, Job.run_get_bind, searched, Job.run_bind_error (Job.run_ofExcept _)]

end Containers

end PackPlan
