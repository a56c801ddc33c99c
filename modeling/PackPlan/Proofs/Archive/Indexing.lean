import Mathlib.Logic.Relation
import PackPlan.Proofs.Archive.Bytes
import PackPlan.Proofs.Archive.Containers
import PackPlan.Proofs.Job
import PackPlan.Proofs.PathTable

/-!
# The index of a directory

The containers of a directory are read one after the other. One that cannot be read for a reason
of the file system, or because it is damaged, is reported and left out; the others are indexed.
Some faults of archives are of another kind, and each of these stops the job.

## Main definitions

* `Containers.Renamed` — nothing but containers has been renamed
* `Containers.Ledger` — the containers that were read, and those that were not
* `Containers.Accounts` — an index and a workspace are as a ledger says
* `Containers.IndexOutcome` — how the indexing of a directory can end

## Main results

* `Containers.openContainer_cases` — what becomes of the files when a container is opened
* `Containers.addContainer_cases`, `Containers.foldlM_addContainer_cases` — what one more
  container preserves, and what all of them preserve
* `Containers.Accounts.xor` — no container is on both sides of a ledger
* `Containers.index_outcome` — the containers of a directory, each indexed or reported, unless
  the fault of one of them stops the job
-/

namespace PackPlan

/-! ### Renaming -/

namespace FileTree

variable {t : FileTree} {p source target : FilePath} {paths : List FilePath} {cause : Fault}

theorem exists_eq_system_of_locate (h : t.locate p paths = .error cause)
    (nul : hasNul p = false) : ∃ reason shown, cause = .system reason shown := by
  rw [locate, nul, if_neg Bool.false_ne_true] at h
  obtain ⟨reason, -, rfl⟩ := exists_of_mapError h
  exact ⟨reason, _, rfl⟩

/-- What keeps a move between places that there can be is a reason of the file system. -/
theorem exists_eq_system_of_move (h : t.move source target = .error cause)
    (nul : hasNul source = false) (nul' : hasNul target = false) :
    ∃ reason shown, cause = .system reason shown := by
  rcases exists_of_bind_error h with first | ⟨old, -, h⟩
  · exact exists_eq_system_of_locate first nul
  rcases exists_of_bind_error h with second | ⟨new, -, h⟩
  · exact exists_eq_system_of_locate second nul'
  dsimp only at h
  split at h
  · cases h
    exact ⟨_, _, rfl⟩
  · cases h

theorem exists_eq_system_of_readBytes (h : t.readBytes p = .error cause)
    (nul : hasNul p = false) : ∃ reason shown, cause = .system reason shown := by
  rcases exists_of_bind_error h with place | ⟨place, -, h⟩
  · exact exists_eq_system_of_locate place nul
  split at h
  · cases h
  · cases h; exact ⟨_, _, rfl⟩
  · cases h; exact ⟨_, _, rfl⟩

end FileTree

namespace Containers

variable {reader : Reader} {overwrite : Bool} {directory c legacy : FilePath} {pattern : String}
  {found done : List FilePath} {w w' w₀ : Workspace} {t : FileTree} {i : Index} {fault : Fault}
  {es : List Archive.Entry} {table : PathTable} {told : List Notice}

theorem guardOverwrite_cases (p : FilePath) (allowed : Bool) (w : Workspace) :
    (Job.guardOverwrite p allowed).run w = (.ok (), w) ∨
      ∃ fault, fault.family = .system ∧
        (Job.guardOverwrite p allowed).run w = (.error fault, w) := by
  rw [Job.run_guardOverwrite]
  cases there : w.files.exists? p with
  | error cause =>
    cases FileTree.eq_tooLong_of_map_find? there
    exact .inr ⟨_, rfl, rfl⟩
  | ok yes =>
    dsimp only
    split
    · exact .inr ⟨_, rfl, rfl⟩
    · exact .inl rfl

/-- A container keeps its legacy name, or it gets its own, or the file system is against it. -/
theorem rename_cases (legacy : FilePath) (overwrite : Bool) (w : Workspace)
    (nul : FileTree.hasNul c = false) :
    (rename legacy c overwrite).run w = (.ok false, w) ∨
      (∃ t, w.files.move legacy c = .ok t ∧
        (rename legacy c overwrite).run w = (.ok true, { w with files := t })) ∨
      ∃ fault, fault.family = .system ∧ (rename legacy c overwrite).run w = (.error fault, w) := by
  rw [rename, Job.run_bind, Job.run_ask]
  cases there : w.files.exists? legacy with
  | error cause =>
    cases FileTree.eq_tooLong_of_map_find? there
    exact .inr (.inr ⟨_, rfl, rfl⟩)
  | ok yes =>
    cases yes with
    | false => exact .inl rfl
    | true =>
      dsimp only [Except.mapError]
      rw [if_pos rfl]
      -- the legacy file is moved only if nothing would be lost by it
      rcases guardOverwrite_cases c overwrite w with free | ⟨fault, system, taken⟩
      · rw [Job.run_bind_ok free, Job.run_bind, Job.run_change]
        cases moved : w.files.move legacy c with
        | error cause =>
          obtain ⟨reason, shown, rfl⟩ :=
            FileTree.exists_eq_system_of_move moved (FileTree.hasNul_of_exists? there) nul
          exact .inr (.inr ⟨_, rfl, rfl⟩)
        | ok t => exact .inr (.inl ⟨t, rfl, rfl⟩)
      · exact .inr (.inr ⟨fault, system, Job.run_bind_error taken⟩)

/-! ### One container -/

/-- Nothing but containers has been renamed. -/
def Renamed (found : List FilePath) : FileTree → FileTree → Prop :=
  Relation.ReflTransGen fun t t' => ∃ c ∈ found, ∃ legacy,
    c.withSuffix legacyExtension = .ok legacy ∧ t.move legacy c = .ok t'

theorem Renamed.mono {t t' : FileTree} (h : Renamed done t t') (sub : done ⊆ found) :
    Renamed found t t' := by
  refine Relation.ReflTransGen.mono ?_ t t' h
  rintro t t' ⟨c, mem, step⟩
  exact ⟨c, sub mem, step⟩

/-- The errors that have been told. -/
def errors (w : Workspace) : List Notice := w.notices.filter (·.isError)

theorem run_openContainer (named : c.withSuffix legacyExtension = .ok legacy) :
    (openContainer reader overwrite c).run w = match (rename legacy c overwrite).run w with
      | (.ok true, w') =>
        (reader w'.files c, { w' with
          notices := w'.notices ++ [.detail s!"renamed {legacy.name} -> {c.name}"] })
      | (.ok false, w') => (reader w'.files c, w')
      | (.error fault, w') => (.error fault, w') := by
  rw [openContainer, named]
  change (rename legacy c overwrite >>= _).run w = _
  rw [Job.run_bind]
  rcases (rename legacy c overwrite).run w with ⟨_ | (_ | _), w'⟩
  · rfl
  · rfl
  · rfl

/-- Of the files, only the container is renamed, and no error is told. Then it is read, unless
the file system is against it. -/
theorem openContainer_cases (reader : Reader) (overwrite : Bool) (w : Workspace)
    (named : c.withSuffix legacyExtension = .ok legacy) (nul : FileTree.hasNul c = false) :
    ∃ w', Renamed [c] w.files w'.files ∧ errors w' = errors w ∧
      ((openContainer reader overwrite c).run w = (reader w'.files c, w') ∨
        ∃ fault, fault.family = .system ∧
          (openContainer reader overwrite c).run w = (.error fault, w')) := by
  rw [run_openContainer named]
  rcases rename_cases legacy overwrite w nul with kept | ⟨t, moved, renamed⟩ |
    ⟨fault, system, failed⟩
  · rw [kept]
    exact ⟨w, .refl, rfl, .inl rfl⟩
  · rw [renamed]
    refine ⟨⟨t, w.notices ++ [.detail s!"renamed {legacy.name} -> {c.name}"]⟩,
      .single ⟨c, List.mem_singleton_self c, legacy, named, moved⟩, ?_, .inl rfl⟩
    rw [errors, List.filter_append, List.filter_singleton]
    exact List.append_nil _
  · rw [failed]
    exact ⟨w, .refl, rfl, .inr ⟨fault, system, rfl⟩⟩

/-! ### Entries -/

theorem recordOf_numbers (c : FilePath) {e : Archive.Entry} {container : String} {bytes : Bytes}
    (listed : Archive.entries container bytes = .ok es) (mem : e ∈ es) :
    ∃ text, numbersText [(recordOf c e).payloadOffset, (recordOf c e).payloadSize,
      (recordOf c e).headerOffset, (recordOf c e).headerSize] = .ok text := by
  obtain ⟨low, high, short, long, small, large⟩ := Archive.bounds_of_mem_entries listed mem
  have two : Nat.pow 256 2 = 65536 := rfl
  have eight : Nat.pow 256 8 = 18446744073709551616 := rfl
  -- no number of an entry has more than twenty digits, far fewer than can be written
  have written : ∀ n : Int, 0 ≤ n → n < 100000000000000000000 →
      Numeral.decimal? n = some (String.ofList (Numeral.decimalText n)) := by
    intro n low high
    refine Numeral.decimal?_eq_some (Numeral.isTooLong_eq_false 20 (by decide) ?_)
    have power : Nat.pow 10 20 = 100000000000000000000 := rfl
    omega
  have data : e.dataOffset = e.headerOffset + e.headerSize := by
    rw [Archive.Entry.headerSize]
    omega
  simp only [Archive.maxOffset, Archive.headerLength] at high short long
  change ∃ text, numbersText [e.dataOffset, e.payloadSize, e.headerOffset, e.headerSize] = .ok text
  rw [numbersText, List.mapM_cons, List.mapM_cons, List.mapM_cons, List.mapM_cons,
    List.mapM_nil, written _ (by omega) (by omega), written _ (by omega) (by omega),
    written _ (by omega) (by omega), written _ (by omega) (by omega)]
  exact ⟨_, rfl⟩

/-- The records of the entries of a container. -/
def recordsOf (c : FilePath) (es : List Archive.Entry) : List Record := es.map (recordOf c)

/-- Where the numbers of entries can be written, the entries go into the index, and details are
told. -/
theorem runFrom_addEntries (c : FilePath) (table : PathTable) (told : List Notice)
    (written : ∀ e ∈ es, ∃ text, numbersText [(recordOf c e).payloadOffset,
      (recordOf c e).payloadSize, (recordOf c e).headerOffset, (recordOf c e).headerSize] =
        .ok text) :
    ∃ details : List Notice, details.filter (·.isError) = [] ∧
      (addEntries c es table).runFrom told =
        (.ok ((recordsOf c es).foldl (fun t r => (t.add r.path r).1) table), told ++ details) := by
  induction es generalizing table told with
  | nil => exact ⟨[], rfl, by rw [List.append_nil]; rfl⟩
  | cons e es ih =>
    rw [List.forall_mem_cons] at written
    obtain ⟨⟨text, here⟩, later⟩ := written
    obtain ⟨details, quiet, rest⟩ := ih _ _ later
    rw [addEntries, here, Attempt.runFrom_bind_ok (Attempt.runFrom_ofExcept _),
      Attempt.runFrom_bind_ok (Attempt.runFrom_tell _), rest]
    refine ⟨.detail s!"{(recordOf c e).path} {(recordOf c e).bundle} {text}" :: details, quiet, ?_⟩
    rw [List.append_assoc]
    rfl

theorem exists_of_zipReader_ok (h : zipReader t c = .ok es) :
    ∃ bytes, t.readBytes c = .ok bytes ∧ Archive.entries c.text bytes = .ok es := by
  obtain ⟨bytes, content, listed⟩ := exists_of_bind_ok h
  exact ⟨bytes, eq_ok_of_mapError content, eq_ok_of_mapError listed⟩

/-- Where a container cannot be read, the file system is against it, or its bytes are no archive
that can be listed. -/
theorem fault_of_zipReader (h : zipReader t c = .error fault) (nul : FileTree.hasNul c = false) :
    fault.family = .system ∨ ∃ bytes cause, t.readBytes c = .ok bytes ∧
      Archive.entries c.text bytes = .error cause ∧ fault = .archive cause := by
  rcases exists_of_bind_error h with unread | ⟨bytes, content, listed⟩
  · obtain ⟨cause, system, rfl⟩ := exists_of_mapError unread
    obtain ⟨reason, shown, rfl⟩ := FileTree.exists_eq_system_of_readBytes system nul
    exact .inl rfl
  · obtain ⟨cause, damaged, rfl⟩ := exists_of_mapError listed
    exact .inr ⟨bytes, cause, eq_ok_of_mapError content, damaged, rfl⟩

/-! ### One more container -/

/-- What is told of a container that was not read. -/
def complaint (f : FilePath × Fault) : Notice :=
  .error s!"skipping container {f.1}: {f.2.message}"

/-- The entries of a container that is read go into the index. -/
theorem run_addContainer_read (opened : (openContainer reader overwrite c).run w = (.ok es, w'))
    (added : (addEntries c es i.entries).runFrom w'.notices = (.ok table, told)) :
    (addContainer reader overwrite i c).run w =
      (.ok { i with entries := table, containers := i.containers ++ [c] },
        { w' with notices := told }) := by
  have gathered : (Job.ofAttempt (addEntries c es i.entries)).run w' =
      (.ok table, { w' with notices := told }) := by
    rw [Job.run_ofAttempt, added]
  rw [addContainer, Job.run_bind_ok (Job.run_outcome _), opened]
  dsimp only
  rw [Job.run_bind_ok gathered, Job.run_pure]

/-- A fault of files or archives is reported, and the job goes on. -/
theorem run_addContainer_failed
    (opened : (openContainer reader overwrite c).run w = (.error fault, w'))
    (system : fault.family = .system) :
    (addContainer reader overwrite i c).run w =
      (.ok { i with failures := i.failures ++ [c.text] },
        { w' with notices := w'.notices ++ [complaint (c, fault)] }) := by
  rw [addContainer, Job.run_bind_ok (Job.run_outcome _), opened]
  dsimp only
  rw [if_pos system, Job.run_bind_ok (Job.run_tell _), Job.run_pure, complaint]

/-- Any other fault is that of the job. -/
theorem run_addContainer_stopped
    (opened : (openContainer reader overwrite c).run w = (.error fault, w'))
    (other : fault.family ≠ .system) :
    (addContainer reader overwrite i c).run w = (.error fault, w') := by
  rw [addContainer, Job.run_bind_ok (Job.run_outcome _), opened]
  dsimp only
  rw [if_neg other, Job.run_throw]

/-! ### All containers -/

/-- What has become of containers. -/
structure Ledger where
  /-- Those that were read, with their entries. -/
  read : List (FilePath × List Archive.Entry) := []
  /-- Those that were not, with their faults. -/
  failed : List (FilePath × Fault) := []

/-- An index and a workspace are as a ledger says, after some containers, from a workspace. -/
structure Accounts (w₀ : Workspace) (done : List FilePath) (l : Ledger) (i : Index)
    (w : Workspace) : Prop where
  /-- Every container is on one side of the ledger. -/
  perm : (l.read.map Prod.fst ++ l.failed.map Prod.fst).Perm done
  /-- The index has the containers that were read. -/
  containers : i.containers = l.read.map Prod.fst
  /-- It has the names of those that were not. -/
  failures : i.failures = l.failed.map fun f => f.1.text
  /-- It has all entries of those that were read, the first at a path counting. -/
  entries : i.entries = PathTable.gather (l.read.map fun r => recordsOf r.1 r.2)
  /-- The entries are what was read, nothing but containers having been renamed before. -/
  read : ∀ r ∈ l.read, ∃ t, Renamed done w₀.files t ∧ zipReader t r.1 = .ok r.2
  /-- The faults are those of files and archives. -/
  system : ∀ f ∈ l.failed, f.2.family = .system
  /-- One error is told for each container that was not read, and no other. -/
  errors : errors w = errors w₀ ++ l.failed.map complaint
  /-- Nothing but containers has been renamed. -/
  renamed : Renamed done w₀.files w.files

namespace Accounts

variable {l : Ledger}

theorem empty (w : Workspace) : Accounts w [] {} {} w where
  perm := .refl _
  containers := rfl
  failures := rfl
  entries := rfl
  read := by simp
  system := by simp
  errors := (List.append_nil _).symm
  renamed := .refl

theorem renamed_concat (h : Accounts w₀ done l i w) (step : Renamed [c] w.files t) :
    Renamed (done ++ [c]) w₀.files t :=
  (h.renamed.mono (List.subset_append_left _ _)).trans (step.mono (List.subset_append_right _ _))

theorem read_concat (h : Accounts w₀ done l i w) (c : FilePath) :
    ∀ r ∈ l.read, ∃ t, Renamed (done ++ [c]) w₀.files t ∧ zipReader t r.1 = .ok r.2 := by
  intro r mem
  obtain ⟨t, renamed, read⟩ := h.read r mem
  exact ⟨t, renamed.mono (List.subset_append_left _ _), read⟩

/-- One more container that was read. -/
theorem addRead (h : Accounts w₀ done l i w) (step : Renamed [c] w.files w'.files)
    (read : zipReader w'.files c = .ok es) (notices : List Notice)
    (quiet : notices.filter (·.isError) = Containers.errors w) :
    Accounts w₀ (done ++ [c]) { l with read := l.read ++ [(c, es)] }
      { i with
        entries := (recordsOf c es).foldl (fun t r => (t.add r.path r).1) i.entries
        containers := i.containers ++ [c] }
      { w' with notices } where
  perm := by
    -- the containers that were read stand before those that were not, so the new one moves up
    rw [List.map_append, List.append_assoc]
    refine (List.perm_append_comm.append_left _).trans ?_
    rw [← List.append_assoc]
    exact h.perm.append_right _
  containers := by rw [h.containers, List.map_append]; rfl
  failures := h.failures
  entries := by rw [List.map_append, List.map_singleton, PathTable.gather_concat, h.entries]
  read := by
    rw [List.forall_mem_append]
    refine ⟨h.read_concat c, fun r mem => ?_⟩
    rw [List.mem_singleton.1 mem]
    exact ⟨w'.files, h.renamed_concat step, read⟩
  system := h.system
  errors := quiet.trans h.errors
  renamed := h.renamed_concat step

/-- One more container that was not read. -/
theorem addFailed (h : Accounts w₀ done l i w) (step : Renamed [c] w.files w'.files)
    (quiet : Containers.errors w' = Containers.errors w) (system : fault.family = .system) :
    Accounts w₀ (done ++ [c]) { l with failed := l.failed ++ [(c, fault)] }
      { i with failures := i.failures ++ [c.text] }
      { w' with notices := w'.notices ++ [complaint (c, fault)] } where
  perm := by
    rw [List.map_append, ← List.append_assoc]
    exact h.perm.append_right _
  containers := h.containers
  failures := by rw [h.failures, List.map_append]; rfl
  entries := h.entries
  read := h.read_concat c
  system := by
    rw [List.forall_mem_append]
    exact ⟨h.system, by simpa using system⟩
  errors := by
    rw [List.map_append, ← List.append_assoc, ← h.errors, ← quiet, Containers.errors,
      List.filter_append]
    rfl
  renamed := h.renamed_concat step

/-- Where the texts of containers differ, each of them is on one side of the ledger only. -/
theorem xor (h : Accounts w₀ done l i w) (distinct : (done.map FilePath.text).Nodup)
    (mem : c ∈ done) : Xor (c ∈ i.containers) (c.text ∈ i.failures) := by
  -- a container on both sides would have its text twice in the ledger
  have texts := (h.perm.map FilePath.text).nodup_iff.2 distinct
  rw [List.map_append, List.nodup_append] at texts
  have apart : c ∈ i.containers → c.text ∉ i.failures := by
    intro read failed
    rw [h.containers] at read
    rw [h.failures] at failed
    refine texts.2.2 c.text (List.mem_map_of_mem read) c.text ?_ rfl
    rw [List.map_map]
    exact failed
  have somewhere : c ∈ i.containers ∨ c.text ∈ i.failures := by
    rw [h.containers, h.failures]
    rcases List.mem_append.1 (h.perm.mem_iff.2 mem) with read | failed
    · exact .inl read
    · obtain ⟨f, there, rfl⟩ := List.mem_map.1 failed
      exact .inr (List.mem_map_of_mem there)
  rcases somewhere with read | failed
  · exact .inl ⟨read, apart read⟩
  · exact .inr ⟨failed, fun read => apart read failed⟩

end Accounts

variable {l : Ledger}

/-- A job comes to a container of which the fault is none of files and archives. -/
structure Stops (w₀ : Workspace) (found : List FilePath) (cause : Archive.Fault)
    (w : Workspace) : Prop where
  /-- The fault is one from which the job does not recover. -/
  other : (Fault.archive cause).family ≠ .system
  /-- It is that of a container. -/
  listing : ∃ c ∈ found, ∃ bytes, w.files.readBytes c = .ok bytes ∧
    Archive.entries c.text bytes = .error cause
  /-- Nothing but containers has been renamed. -/
  renamed : Renamed found w₀.files w.files

theorem Stops.mono {cause : Archive.Fault} (h : Stops w₀ done cause w) (sub : done ⊆ found) :
    Stops w₀ found cause w where
  other := h.other
  listing := by
    obtain ⟨c, mem, listing⟩ := h.listing
    exact ⟨c, sub mem, listing⟩
  renamed := h.renamed.mono sub

/-- One more container is read, or it is not, or it stops the job. -/
theorem addContainer_cases (overwrite : Bool) (h : Accounts w₀ done l i w)
    (named : c.withSuffix legacyExtension = .ok legacy) (nul : FileTree.hasNul c = false) :
    (∃ l' i' w', (addContainer zipReader overwrite i c).run w = (.ok i', w') ∧
      Accounts w₀ (done ++ [c]) l' i' w') ∨
    ∃ cause w', (addContainer zipReader overwrite i c).run w = (.error (.archive cause), w') ∧
      Stops w₀ (done ++ [c]) cause w' := by
  obtain ⟨w', renamed, quiet, opened⟩ := openContainer_cases zipReader overwrite w named nul
  -- a fault of the file system, wherever it comes from
  have failed : ∀ fault, fault.family = .system →
      (openContainer zipReader overwrite c).run w = (.error fault, w') →
        ∃ l' i' w', (addContainer zipReader overwrite i c).run w = (.ok i', w') ∧
          Accounts w₀ (done ++ [c]) l' i' w' := by
    intro fault system opened
    exact ⟨_, _, _, run_addContainer_failed opened system, h.addFailed renamed quiet system⟩
  rcases opened with opened | ⟨fault, system, opened⟩
  · cases read : zipReader w'.files c with
    | ok es =>
      rw [read] at opened
      obtain ⟨bytes, content, listed⟩ := exists_of_zipReader_ok read
      obtain ⟨details, silent, added⟩ := runFrom_addEntries c i.entries w'.notices
        fun e mem => recordOf_numbers c listed mem
      refine .inl ⟨_, _, _, run_addContainer_read opened added,
        h.addRead renamed read (w'.notices ++ details) ?_⟩
      rw [List.filter_append, silent, List.append_nil]
      exact quiet
    | error fault =>
      rw [read] at opened
      rcases fault_of_zipReader read nul with system | ⟨bytes, cause, content, damaged, rfl⟩
      · exact .inl (failed fault system opened)
      · by_cases system : (Fault.archive cause).family = .system
        · exact .inl (failed _ system opened)
        · exact .inr ⟨cause, w', run_addContainer_stopped opened system, system,
            ⟨c, List.mem_append_right _ (List.mem_singleton_self c), bytes, content, damaged⟩,
            h.renamed_concat renamed⟩
  · exact .inl (failed fault system opened)

/-- The containers of a directory one after the other. -/
theorem foldlM_addContainer_cases (overwrite : Bool) (h : Accounts w₀ done l i w)
    (places : ∀ c ∈ found, (∃ legacy, c.withSuffix legacyExtension = .ok legacy) ∧
      FileTree.hasNul c = false) :
    (∃ l' i' w', (found.foldlM (addContainer zipReader overwrite) i).run w = (.ok i', w') ∧
      Accounts w₀ (done ++ found) l' i' w') ∨
    ∃ cause w', (found.foldlM (addContainer zipReader overwrite) i).run w =
      (.error (.archive cause), w') ∧ Stops w₀ (done ++ found) cause w' := by
  induction found generalizing done l i w with
  | nil => exact .inl ⟨l, i, w, rfl, by rwa [List.append_nil]⟩
  | cons c found ih =>
    rw [List.forall_mem_cons] at places
    obtain ⟨⟨⟨legacy, named⟩, nul⟩, later⟩ := places
    rw [List.foldlM_cons, List.append_cons]
    -- the ledger is what the rest of the containers go on with
    rcases addContainer_cases overwrite h named nul with ⟨l', i', w', step, accounts⟩ |
      ⟨cause, w', step, stops⟩
    · rw [Job.run_bind_ok step]
      exact ih accounts later
    · rw [Job.run_bind_error step]
      exact .inr ⟨cause, w', rfl, stops.mono (List.subset_append_left _ _)⟩

/-- How the indexing of a directory can end. -/
inductive IndexOutcome (w : Workspace) (directory : FilePath) (pattern : String) :
    Except Fault Index × Workspace → Prop
  /-- Nothing happens where the pattern is none or a path is too long. -/
  | unsearched (fault : Fault) (searched : find w.files directory pattern = .error fault)
      (cause : (∃ cause, fault = .search cause) ∨
        ∃ p : FilePath, fault = .files (.system .nameTooLong [p.text])) :
      IndexOutcome w directory pattern (.error fault, w)
  /-- Each container that is found has been read, or it has not, but not both. -/
  | indexed (found : List FilePath) (l : Ledger) (i : Index) (w' : Workspace)
      (searched : find w.files directory pattern = .ok found) (accounts : Accounts w found l i w')
      (apart : ∀ c ∈ found, Xor (c ∈ i.containers) (c.text ∈ i.failures)) :
      IndexOutcome w directory pattern (.ok i, w')
  /-- The fault of a container is that of the job. -/
  | stopped (found : List FilePath) (cause : Archive.Fault) (w' : Workspace)
      (searched : find w.files directory pattern = .ok found) (stops : Stops w found cause w') :
      IndexOutcome w directory pattern (.error (.archive cause), w')

/-- Either the job ends, and every container that is found is indexed or reported; or it stops at
an archive that asks for a later version of the format, that has a member whose name is no text or
is empty, or a header at an offset that needs more than 64 bits. -/
theorem index_outcome (w : Workspace) (directory : FilePath) (pattern : String)
    (overwrite : Bool) (named : w.files.IsWellNamed) :
    IndexOutcome w directory pattern ((index zipReader directory pattern overwrite).run w) := by
  rw [index, Job.run_get_bind]
  cases searched : find w.files directory pattern with
  | error fault =>
    rw [Job.run_bind_error (Job.run_ofExcept _)]
    exact .unsearched fault searched (fault_of_find searched)
  | ok found =>
    rw [Job.run_bind_ok (Job.run_ofExcept _)]
    -- so no container can fail for the sake of its name
    have places : ∀ c ∈ found, (∃ legacy, c.withSuffix legacyExtension = .ok legacy) ∧
        FileTree.hasNul c = false := by
      obtain ⟨all, -, rfl, nul⟩ := exists_stems_of_find named searched
      intro c mem
      obtain ⟨stem, member, rfl⟩ := List.mem_map.1 mem
      exact ⟨exists_legacy directory stem, nul stem member⟩
    rcases foldlM_addContainer_cases overwrite (Accounts.empty w) places with
      ⟨l, i, w', run, accounts⟩ | ⟨cause, w', run, stops⟩
    · rw [run]
      exact .indexed found l i w' searched accounts
        fun c mem => accounts.xor (nodup_map_text_find named searched) mem
    · rw [run]
      exact .stopped found cause w' searched stops

/-! ### An archive of a later version -/

/-- An archive with one member, which asks for a version of the format, in tenths. -/
def smallArchive (version : UInt8) : Bytes :=
  -- the local header, with the name, and two bytes of data
  [0x50, 0x4b, 0x03, 0x04, 20, 0, 0, 0, 0, 0, 0, 0, 0, 0, 0, 0, 0, 0, 2, 0, 0, 0, 2, 0, 0, 0, 1, 0,
    0, 0, 0x61, 0x68, 0x69,
  -- the entry of the directory, with the name
    0x50, 0x4b, 0x01, 0x02, 20, 0, version, 0, 0, 0, 0, 0, 0, 0, 0, 0, 0, 0, 0, 0, 2, 0, 0, 0, 2, 0,
    0, 0, 1, 0, 0, 0, 0, 0, 0, 0, 0, 0, 0, 0, 0, 0, 0, 0, 0, 0, 0x61,
  -- the end record
    0x50, 0x4b, 0x05, 0x06, 0, 0, 0, 0, 1, 0, 1, 0, 47, 0, 0, 0, 33, 0, 0, 0, 0, 0]

/-- Two containers, of which the first asks for a version of the format. -/
def twoContainers (version : UInt8) : Workspace where
  files :=
    { nodes :=
        { entries := [(["x.bpak"], .file (smallArchive version)),
            (["y.bpak"], .file (smallArchive 20))]
          nodup := by simp } }

theorem index_outcome_twoContainers : (twoContainers 20).files.IsWellNamed ∧
    IndexOutcome (twoContainers 20) ⟨"", []⟩ "*"
      ((index zipReader ⟨"", []⟩ "*" false).run (twoContainers 20)) :=
  ⟨by decide, index_outcome (twoContainers 20) ⟨"", []⟩ "*" false (by decide)⟩

/-- An archive that asks for too late a version keeps a good container from being indexed. -/
theorem not_indexed_laterVersion :
    zipReader (twoContainers 64).files ⟨"", ["y.bpak"]⟩ = .ok [⟨"a", 0, 31, 33⟩] ∧
      ¬∃ i, ((index zipReader ⟨"", []⟩ "*" false).run (twoContainers 64)).1 = .ok i := by
  have searched : find (twoContainers 64).files ⟨"", []⟩ "*" =
      .ok [⟨"", ["x.bpak"]⟩, ⟨"", ["y.bpak"]⟩] := by
    have legacy : stems (twoContainers 64).files ⟨"", []⟩ "*" legacyExtension = .ok [] := by
      decide +kernel
    have canonical : stems (twoContainers 64).files ⟨"", []⟩ "*" extension = .ok ["x", "y"] := by
      decide +kernel
    have sorted : (([] ++ ["x", "y"] : List String).eraseDups.mergeSort fun a b => !(b < a)) =
        ["x", "y"] := List.mergeSort_of_pairwise (by decide)
    rw [find, legacy, canonical]
    change Except.ok (List.map _ (List.mergeSort _ _)) = _
    rw [sorted]
    decide +kernel
  refine ⟨by decide +kernel, ?_⟩
  rintro ⟨i, run⟩
  rw [index, Job.run_get_bind, searched, Job.run_bind_ok (Job.run_ofExcept _)] at run
  have stopped : ((List.foldlM (addContainer zipReader false) {}
      [⟨"", ["x.bpak"]⟩, ⟨"", ["y.bpak"]⟩]).run (twoContainers 64)).1.toOption.isNone = true := by
    decide +kernel
  rw [run] at stopped
  cases stopped

end Containers

end PackPlan
