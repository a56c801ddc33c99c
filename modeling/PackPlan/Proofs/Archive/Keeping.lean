import Mathlib.Algebra.Ring.Int.Defs
import PackPlan.Proofs.Archive.Reports

/-!
# No file is lost

Without leave to overwrite, indexing a directory changes it only where a container gets its own
name: a file under a legacy name is found with its content under the name of the container, if
nothing was there, and everything else stays where it was.

## Main definitions

* `Containers.Pending` — a container that is to get its own name
* `Containers.Promoted` — some containers have got their own names, and nothing else has changed
* `Containers.Answer` — what a container answers
* `Containers.Kept` — how the indexing of a directory can end

## Main results

* `Containers.moves_iff_pending` — the containers that get their own names
* `Containers.answer_opened` — what one container answers, and what has become of the files by then
* `Containers.index_kept` — no file is lost, and the index is what the containers answer
-/

namespace PackPlan

namespace Containers

variable {reader : Reader} {d : FilePath} {base : Location} {t t' : FileTree}
  {start stem : String} {stems front back : List String} {paths : List FilePath} {fault : Fault}
  {w : Workspace} {moved : String → Prop}

/-! ### Containers that get their own names -/

/-- A container that is to get its own name: there is a file under its legacy name, and there can
be one under its own, but there is nothing. -/
structure Pending (t : FileTree) (d : FilePath) (start stem : String) : Prop where
  starts : Starts start stem
  legacy : t.isFile? (legacyPath d stem) = .ok true
  free : t.exists? (container d stem) = .ok false

/-- Some containers of a directory have got their own names: each is found there with its content,
and no longer under its legacy name, and everything else is where it was. -/
structure Promoted (d : FilePath) (t : FileTree) (moved : String → Prop) (t' : FileTree) :
    Prop where
  content : ∀ stem, moved stem → ∀ content, t.readBytes (legacyPath d stem) = .ok content →
    t'.readBytes (container d stem) = .ok content
  gone : ∀ stem, moved stem → t'.exists? (legacyPath d stem) = .ok false
  kept : ∀ place, (∀ stem, moved stem → t.locate (legacyPath d stem) ≠ .ok place ∧
    t.locate (container d stem) ≠ .ok place) → t'.node? place = t.node? place

theorem Promoted.congr {moved' : String → Prop} (h : Promoted d t moved t')
    (same : ∀ stem, moved stem ↔ moved' stem) : Promoted d t moved' t' := by
  rwa [← funext fun stem => propext (same stem)]

theorem Pending.isFound (h : Pending t d start stem) : IsFound t d start stem :=
  ⟨h.starts, .inl h.legacy⟩

/-- Where a container is found there is the directory. -/
theorem IsFound.exists_isAt (h : IsFound t d start stem) (isStart : IsStart start) :
    ∃ base, t.IsAt d base := by
  have nonempty := h.starts.ne_empty isStart
  rcases h.file with legacy | own
  · obtain ⟨base, isAt, -⟩ := exists_isAt_of_isFile?
      (isExtension_legacyExtension.isName nonempty h.starts.plain) legacy
    exact ⟨base, isAt⟩
  · obtain ⟨base, isAt, -⟩ := exists_isAt_of_isFile?
      (isExtension_extension.isName nonempty h.starts.plain) own
    exact ⟨base, isAt⟩

/-- Something can stand under the own name of a container, and nothing does. -/
theorem IsStem.exists?_eq_false (h : IsStem t d base stem) :
    t.exists? (container d stem) = .ok false ↔
      d.isShort (stem ++ extension) = true ∧ t.node? (ownPlace base stem) = none := by
  rw [h.exists?_container]
  split
  · next short => simp [short]
  · next long => exact iff_of_false nofun fun both => long both.1

/-- The containers that get their own names. -/
theorem moves_iff_pending (isStart : IsStart start) (isAt : t.IsAt d base)
    (found : IsFound t d start stem) :
    Moves false d t base stem ↔ Pending t d start stem := by
  have c := found.isContainer isStart isAt
  constructor
  · rintro ⟨there, free⟩
    have vacant : t.node? (ownPlace base stem) = none := by
      by_contra taken
      rw [refusal?, if_neg there] at free
      split at free
      · cases free
      · rw [if_pos ⟨taken, rfl⟩] at free
        cases free
    obtain ⟨short, ⟨absent, -⟩ | ⟨-, content, file⟩⟩ := cases_of_refusal?_none free c.file
    · exact absurd absent there
    · refine ⟨found.starts, FileTree.isFile?_eq_true.2 ⟨content, c.readBytes_legacy.2 file⟩, ?_⟩
      exact c.exists?_eq_false.2 ⟨short, vacant⟩
  · rintro ⟨-, legacy, free⟩
    obtain ⟨content, read⟩ := FileTree.isFile?_eq_true.1 legacy
    obtain ⟨short, vacant⟩ := c.exists?_eq_false.1 free
    have file := c.readBytes_legacy.1 read
    refine ⟨by rw [file]; exact Option.some_ne_none _, ?_⟩
    rw [refusal?, file, vacant, short, if_neg (Option.some_ne_none _),
      if_neg Bool.false_ne_true.symm, if_neg fun taken => taken.1 rfl]
    rfl

theorem Moved.promoted (h : Moved t base moved t') (isStart : IsStart start)
    (isAt : t.IsAt d base) (pending : ∀ stem, moved stem → Pending t d start stem) :
    Promoted d t moved t' := by
  have isStem : ∀ stem, moved stem → IsStem t d base stem := fun stem done =>
    (pending stem done).isFound.isStem isStart isAt
  have short : ∀ stem, moved stem → d.isShort (stem ++ extension) = true := fun stem done =>
    ((isStem stem done).exists?_eq_false.1 (pending stem done).free).1
  refine ⟨?_, ?_, ?_⟩
  · intro stem done content read
    refine (h.isStem (isStem stem done)).readBytes_container.2 ⟨short stem done, ?_⟩
    rw [h.content stem done, (isStem stem done).readBytes_legacy.1 read]
  · intro stem done
    rw [(h.isStem (isStem stem done)).exists?_legacy, h.gone stem done]
    rfl
  · intro place apart
    refine h.kept place fun stem done => ?_
    obtain ⟨old, new⟩ := apart stem done
    rw [(isStem stem done).locate_legacy, ne_eq, Except.ok.injEq] at old
    rw [(isStem stem done).locate_container _ (short stem done), ne_eq, Except.ok.injEq] at new
    exact ⟨Ne.symm old, Ne.symm new⟩

/-! ### Answers -/

/-- What a container answers: what the reader says of it after the containers up to it have got
their own names, or why it keeps its legacy name. -/
inductive Answer (reader : Reader) (d : FilePath) (start : String) (t : FileTree)
    (stem : String) : Except Fault (List Archive.Entry) → Prop
  /-- It is read under its own name. -/
  | read (t' : FileTree)
      (promoted : Promoted d t (fun other => Pending t d start other ∧ other ≤ stem) t')
      (free : t.exists? (legacyPath d stem) = .ok true →
        t.exists? (container d stem) = .ok false) :
      Answer reader d start t stem (reader t' (container d stem))
  /-- Something would be overwritten. -/
  | taken (legacy : t.exists? (legacyPath d stem) = .ok true)
      (own : t.exists? (container d stem) = .ok true) :
      Answer reader d start t stem (.error (.overwrite (container d stem).text))
  /-- Its own name is too long. -/
  | unnamed (legacy : t.exists? (legacyPath d stem) = .ok true) (cause : FileTree.Fault)
      (own : t.exists? (container d stem) = .error cause) :
      Answer reader d start t stem (.error (.files cause))

/-- Why a container keeps its legacy name. -/
theorem answer_of_refusal? (c : IsContainer t d base stem)
    (h : refusal? false d stem (t.node? (legacyPlace base stem)) (t.node? (ownPlace base stem)) =
      some fault) : Answer reader d start t stem (.error fault) := by
  rw [refusal?] at h
  split at h
  · cases h
  next there =>
  have legacy : t.exists? (legacyPath d stem) = .ok true := by
    rw [c.exists?_legacy, Option.isSome_iff_ne_none.2 there]
  have own := c.exists?_container
  split at h
  · next long =>
    cases h
    rw [long] at own
    exact .unnamed legacy _ own
  next short =>
  rw [Bool.not_eq_false] at short
  rw [short, if_pos rfl] at own
  split at h
  · next taken =>
    cases h
    rw [Option.isSome_iff_ne_none.2 taken.1] at own
    exact .taken legacy own
  · next vacant =>
    -- nothing stands in the way of a file
    have none : t.node? (ownPlace base stem) = none := by
      by_contra some
      exact vacant ⟨some, rfl⟩
    rw [none, obstacle?_none] at h
    cases h

theorem free_of_refusal? (c : IsContainer t d base stem)
    (h : refusal? false d stem (t.node? (legacyPlace base stem)) (t.node? (ownPlace base stem)) =
      none) (legacy : t.exists? (legacyPath d stem) = .ok true) :
    t.exists? (container d stem) = .ok false := by
  rw [c.exists?_legacy, Except.ok.injEq, Option.isSome_iff_ne_none] at legacy
  rw [refusal?, if_neg legacy] at h
  split at h
  · cases h
  · next short =>
    split at h
    · cases h
    · next vacant =>
      refine c.exists?_eq_false.2 ⟨by simpa using short, ?_⟩
      by_contra some
      exact vacant ⟨some, rfl⟩

/-- The stems up to one of several in ascending order. -/
theorem mem_concat_iff_le (ascending : (front ++ stem :: back).Pairwise (· < ·)) {other : String} :
    other ∈ front ++ [stem] ↔ other ∈ front ++ stem :: back ∧ other ≤ stem := by
  rw [List.pairwise_append, List.pairwise_cons] at ascending
  obtain ⟨-, ⟨after, -⟩, before⟩ := ascending
  simp only [List.mem_append, List.mem_cons, List.not_mem_nil, or_false]
  constructor
  · rintro (mem | rfl)
    · exact ⟨.inl mem, (before other mem stem List.mem_cons_self).le⟩
    · exact ⟨.inr (.inl rfl), le_refl other⟩
  · rintro ⟨mem | rfl | mem, below⟩
    · exact .inl mem
    · exact .inr rfl
    · exact absurd (after other mem) (not_lt.2 below)

/-- What has become of the files when some of the containers have been opened. -/
theorem promoted_openAll (reader : Reader) (isStart : IsStart start) (proper : t.IsProper)
    (isAt : t.IsAt d base) {opens : String → Prop} (distinct : stems.Nodup)
    (mem : ∀ stem, stem ∈ stems ↔ IsFound t d start stem ∧ opens stem) :
    Promoted d t (fun stem => Pending t d start stem ∧ opens stem)
      (openAll reader false d base t stems).2 := by
  have each : ∀ stem ∈ stems, IsContainer t d base stem := fun stem member =>
    ((mem stem).1 member).1.isContainer isStart isAt
  have all := moved_openAll reader false proper each distinct
  refine Moved.promoted (all.congr fun stem => ?_) isStart isAt fun stem done => done.1
  rw [mem]
  constructor
  · rintro ⟨⟨found, opens⟩, moves⟩
    exact ⟨(moves_iff_pending isStart isAt found).1 moves, opens⟩
  · rintro ⟨pending, opens⟩
    exact ⟨⟨pending.isFound, opens⟩, (moves_iff_pending isStart isAt pending.isFound).2 pending⟩

/-- What has become of the files when one of the containers has been opened. -/
theorem promoted_openAll_concat (reader : Reader) (isStart : IsStart start) (proper : t.IsProper)
    (isAt : t.IsAt d base) (split : stems = front ++ stem :: back)
    (ascending : stems.Pairwise (· < ·)) (mem : ∀ stem, stem ∈ stems ↔ IsFound t d start stem) :
    Promoted d t (fun other => Pending t d start other ∧ other ≤ stem)
      (openAll reader false d base t (front ++ [stem])).2 := by
  subst split
  refine promoted_openAll reader isStart proper isAt ?_ fun other => ?_
  · have all : (front ++ stem :: back).Nodup := ascending.imp ne_of_lt
    rw [List.append_cons] at all
    exact (List.nodup_append.1 all).1
  · rw [mem_concat_iff_le ascending, mem]

theorem snd_openAll_concat (t : FileTree) (front : List String) (stem : String) :
    (openAll reader false d base t (front ++ [stem])).2 =
      (opened reader false d base (openAll reader false d base t front).2 stem).2 := by
  rw [openAll_append]
  rfl

/-- What one of the containers answers. -/
theorem answer_opened (isStart : IsStart start) (proper : t.IsProper) (isAt : t.IsAt d base)
    (split : stems = front ++ stem :: back) (ascending : stems.Pairwise (· < ·))
    (mem : ∀ stem, stem ∈ stems ↔ IsFound t d start stem) :
    Answer reader d start t stem
      (opened reader false d base (openAll reader false d base t front).2 stem).1 := by
  have promoted := promoted_openAll_concat reader isStart proper isAt split ascending mem
  rw [snd_openAll_concat] at promoted
  subst split
  have each : ∀ other ∈ front ++ stem :: back, IsContainer t d base other := fun other member =>
    ((mem other).1 member).isContainer isStart isAt
  have distinct : (front ++ stem :: back).Nodup := ascending.imp ne_of_lt
  obtain ⟨distinct, -, disjoint⟩ := List.nodup_append.1 distinct
  have c := each stem (List.mem_append_right _ List.mem_cons_self)
  -- the containers before this one have left it as it was
  obtain ⟨old, new⟩ := node?_openAll_of_notMem reader false proper
    (fun other member => each other (List.mem_append_left _ member)) distinct
    fun member => disjoint stem member stem List.mem_cons_self rfl
  generalize (openAll reader false d base t front).2 = t' at promoted old new ⊢
  cases free : refusal? false d stem (t.node? (legacyPlace base stem))
      (t.node? (ownPlace base stem)) with
  | some fault =>
    rw [opened_of_refusal? (by rw [old, new, free])]
    exact answer_of_refusal? c free
  | none =>
    have once : opened reader false d base t' stem =
        (reader (settled t' base stem) (container d stem), settled t' base stem) := by
      rw [opened, old, new, free]
    rw [once] at promoted ⊢
    exact .read _ promoted (free_of_refusal? c free)

/-! ### The whole directory -/

/-- A search with the pattern of a start only fails at a path that is too long. -/
theorem fault_of_find_startPattern (isStart : IsStart start)
    (h : find t d (startPattern start) = .error fault) :
    ∃ p : FilePath, fault = .files (.system .nameTooLong [p.text]) := by
  have known : ∀ {ext : String} {letters : List Char}, IsExtension ext letters →
      ∀ cause, stems t d (startPattern start) ext ≠ .error (.search cause) := by
    intro ext letters isExtension cause failed
    rcases exists_of_bind_error failed with searched | ⟨found, -, failed⟩
    · rcases exists_of_bind_error searched with none | ⟨levels, -, searched⟩
      · rw [levels_startPattern isStart isExtension] at none
        cases none
      · rcases exists_of_bind_error searched with dir | ⟨isDir, -, searched⟩
        · obtain ⟨_, -, other⟩ := exists_of_mapError dir
          cases other
        · split at searched
          · obtain ⟨_, -, other⟩ := exists_of_mapError searched
            cases other
          · cases searched
    · rcases exists_of_bind_error failed with looking | ⟨files, -, failed⟩
      · obtain ⟨q, -, looking⟩ := exists_of_filterM_error looking
        obtain ⟨_, -, other⟩ := exists_of_mapError looking
        cases other
      · cases failed
  rcases fault_of_find h with ⟨cause, rfl⟩ | long
  · rcases exists_of_bind_error h with first | ⟨legacy, -, h⟩
    · exact absurd first (known isExtension_legacyExtension cause)
    · rcases exists_of_bind_error h with second | ⟨canonical, -, h⟩
      · exact absurd second (known isExtension_extension cause)
      · cases h
  · exact long

/-- How the indexing of a directory can end when nothing may be overwritten. -/
inductive Kept (reader : Reader) (d : FilePath) (start : String) (w : Workspace) :
    Except Fault Index × Workspace → Prop
  /-- Nothing happens where a path is too long to be looked at. -/
  | unsearched (p : FilePath)
      (searched : find w.files d (startPattern start) =
        .error (.files (.system .nameTooLong [p.text]))) :
      Kept reader d start w (.error (.files (.system .nameTooLong [p.text])), w)
  /-- The containers answer one after the other, in the order of their stems, and the index is
  what they answer. Those that are pending have got their own names. -/
  | indexed (stems : List String) (answers : Report) (i : Index) (w' : Workspace)
      (searched : find w.files d (startPattern start) = .ok (stems.map (container d)))
      (ascending : stems.Pairwise (· < ·))
      (mem : ∀ stem, stem ∈ stems ↔ IsFound w.files d start stem)
      (answered : List.Forall₂
        (fun stem a => a.1 = container d stem ∧ Answer reader d start w.files stem a.2)
          stems answers)
      (containers : i.containers = Report.read answers)
      (failures : i.failures = (Report.unread answers).map FilePath.text)
      (entries : ∀ path, i.entries.get? path =
        (answers.flatMap answerRecords).find? (·.path = path))
      (promoted : Promoted d w.files (Pending w.files d start) w'.files) :
      Kept reader d start w (.ok i, w')
  /-- An entry of a container has a number that cannot be written. The containers up to it that
  are pending have got their own names. -/
  | stopped (stem : String) (es : List Archive.Entry) (w' : Workspace)
      (found : IsFound w.files d start stem) (answer : Answer reader d start w.files stem (.ok es))
      (long : ∃ e ∈ es, ¬IsWritable (container d stem) e)
      (promoted : Promoted d w.files
        (fun other => Pending w.files d start other ∧ other ≤ stem) w'.files) :
      Kept reader d start w (.error .longNumber, w')

/-- The faults of a reader are those of the file system. -/
def IsFileReader (reader : Reader) : Prop :=
  ∀ t p fault, reader t p = .error fault → fault.family = .system

/-- An answer is entries, or a fault of the file system. -/
theorem Answer.family_eq (refusals : IsFileReader reader)
    {r : Except Fault (List Archive.Entry)} (h : Answer reader d start t stem r) {fault : Fault}
    (failed : r = .error fault) : fault.family = .system := by
  cases h with
  | read t' promoted free => exact refusals t' _ fault failed
  | taken legacy own => cases failed; rfl
  | unnamed legacy cause own =>
    cases failed
    cases FileTree.eq_tooLong_of_map_find? own
    rfl

/-- No file is lost. This is said of the files in a tree, which has no links and out of which no
path leads: one with a root is not found, and a step up from the working directory stays there. -/
theorem index_kept (refusals : IsFileReader reader) (isStart : IsStart start)
    (proper : w.files.IsProper) :
    Kept reader d start w ((index reader d (startPattern start) false).run w) := by
  cases searched : find w.files d (startPattern start) with
  | error fault =>
    obtain ⟨p, rfl⟩ := fault_of_find_startPattern isStart searched
    rw [run_index_of_error searched]
    exact .unsearched p searched
  | ok paths =>
    rw [run_index_of_ok searched]
    by_cases dir : ∃ base, w.files.IsAt d base
    · obtain ⟨base, isAt⟩ := dir
      obtain ⟨stems, rfl, ascending, mem⟩ :=
        exists_of_find_eq_ok proper.named isStart isAt searched
      have each : ∀ stem ∈ stems, IsContainer w.files d base stem := fun stem member =>
        ((mem stem).1 member).isContainer isStart isAt
      have distinct : stems.Nodup := ascending.imp ne_of_lt
      have answers : ∀ front stem back, stems = front ++ stem :: back →
          Answer reader d start w.files stem
            (opened reader false d base (openAll reader false d base w.files front).2 stem).1 :=
        fun front stem back split =>
          answer_opened isStart proper isAt split ascending mem
      by_cases goes : ∀ a ∈ (openAll reader false d base w.files stems).1, Continues a
      · obtain ⟨told, run⟩ := run_foldlM_of_continues proper each distinct goes (i := {})
        rw [run]
        refine .indexed stems _ _ _ searched ascending mem (forall₂_openAll answers)
          (Index.containers_ofReport _) (Index.failures_ofReport _)
          (fun path => Index.get?_ofReport _ path) ?_
        exact (promoted_openAll reader isStart proper isAt distinct fun stem =>
          (mem stem).trans (and_iff_left trivial).symm).congr fun stem => and_iff_left trivial
      · obtain ⟨front, stem, back, fault, told, split, run, stops, cause⟩ :=
          run_foldlM_of_stops proper each distinct goes (i := {})
        have answer := answers front stem back split
        have promoted := promoted_openAll_concat reader isStart proper isAt split ascending mem
        have found : IsFound w.files d start stem := by
          rw [← mem, split]
          exact List.mem_append_right _ List.mem_cons_self
        rw [run]
        cases given : (opened reader false d base
            (openAll reader false d base w.files front).2 stem).1 with
        | error other =>
          rw [given] at stops
          exact absurd (answer.family_eq refusals given) stops
        | ok es =>
          rw [given] at stops answer cause
          obtain rfl := cause.resolve_right nofun
          refine .stopped stem es _ found answer ?_ promoted
          by_contra none
          exact stops fun e member => by_contra fun long => none ⟨e, member, long⟩
    · -- without the directory nothing is found
      have nothing : ∀ stem, ¬IsFound w.files d start stem := fun stem found =>
        dir (found.exists_isAt isStart)
      obtain rfl := (isAt_or_eq_nil_of_find searched).resolve_left dir
      exact .indexed [] [] {} w searched .nil
        (fun stem => iff_of_false List.not_mem_nil (nothing stem)) .nil rfl rfl (fun _ => rfl)
        { content := fun stem pending => absurd pending.isFound (nothing stem)
          gone := fun stem pending => absurd pending.isFound (nothing stem)
          kept := fun _ _ => rfl }

/-! ### Directories -/

/-- A reader that finds one entry in a container, as large as the container, and none in an empty
one. -/
def sizeReader : Reader := fun t p =>
  match t.readBytes p with
  | .ok (byte :: content) => .ok [⟨"data", 0, 30, 30 + (byte :: content).length⟩]
  | _ => .error (.foreign .system "OSError" "nothing to be read")

theorem isFileReader_sizeReader : IsFileReader sizeReader := by
  intro t p fault failed
  rw [sizeReader] at failed
  split at failed
  · cases failed
  · cases failed
    rfl

/-- A directory with containers under legacy names, under their own, and under both. -/
def assorted : FileTree where
  nodes :=
    { entries := [(["x.1.pak"], .file [1]), (["x2.pak"], .file [2]), (["x2.bpak"], .file [3, 3]),
        (["x3.pak"], .dir), (["x3.bpak"], .file [4]), (["x4.bpak"], .file [5]),
        (["x5.bpak"], .file []), (["y.pak"], .file [6])]
      nodup := by simp }

theorem find_of_stems {pattern : String} {legacy canonical all : List String}
    (first : Containers.stems t d pattern legacyExtension = .ok legacy)
    (second : Containers.stems t d pattern extension = .ok canonical)
    (sorted : ((legacy ++ canonical).eraseDups.mergeSort fun a b => !(b < a)) = all) :
    find t d pattern = .ok (all.map fun stem => d.join (stem ++ extension)) := by
  rw [find, first, second, ← sorted]
  rfl

theorem find_assorted : find assorted ⟨"", []⟩ (startPattern "x") =
    .ok (["x.1", "x2", "x3", "x4", "x5"].map (container ⟨"", []⟩)) := by
  have legacy : stems assorted ⟨"", []⟩ (startPattern "x") legacyExtension =
      .ok ["x.1", "x2"] := by decide +kernel
  have canonical : stems assorted ⟨"", []⟩ (startPattern "x") extension =
      .ok ["x2", "x3", "x4", "x5"] := by decide +kernel
  have sorted : ((["x.1", "x2"] ++ ["x2", "x3", "x4", "x5"] : List String).eraseDups.mergeSort
      fun a b => !(b < a)) = ["x.1", "x2", "x3", "x4", "x5"] :=
    List.mergeSort_of_pairwise (by decide)
  rw [find_of_stems legacy canonical sorted]
  decide +kernel

theorem index_kept_assorted : IsFileReader sizeReader ∧ IsStart "x" ∧ assorted.IsProper ∧
    Kept sizeReader ⟨"", []⟩ "x" ⟨assorted, []⟩
      ((index sizeReader ⟨"", []⟩ (startPattern "x") false).run ⟨assorted, []⟩) :=
  ⟨isFileReader_sizeReader, by decide, by decide,
    index_kept isFileReader_sizeReader (by decide) (by decide)⟩

/-- A directory with one container, under a legacy name. -/
def single (stem : String) : FileTree where
  nodes :=
    { entries := [([stem ++ legacyExtension], .file [1])]
      nodup := by simp }

theorem node?_single (stem : String) (place : Location) (inside : place ≠ []) :
    (single stem).node? place =
      if place = [stem ++ legacyExtension] then some (.file [1]) else none := by
  rw [FileTree.node?_of_ne_nil _ inside]
  by_cases same : place = [stem ++ legacyExtension]
  · rw [if_pos same, Table.get?_eq_some, same]
    exact List.mem_singleton_self _
  · rw [if_neg same, Table.get?_eq_none]
    exact fun key => same (List.mem_singleton.1 key)

theorem utf8ByteSize_replicate (n : Nat) :
    (String.ofList (List.replicate n 'a')).utf8ByteSize = n := by
  induction n with
  | zero => rfl
  | succ n ih =>
    have one : (String.ofList ['a']).utf8ByteSize = 1 := by decide
    rw [List.replicate_succ, ← List.singleton_append, String.ofList_append,
      String.utf8ByteSize_append, ih, one, Nat.add_comm]

/-- A stem that only a legacy name has room for. -/
def longStem : String := String.ofList (List.replicate 251 'a')

theorem utf8ByteSize_longStem : longStem.utf8ByteSize = 251 := utf8ByteSize_replicate 251

theorem toList_longStem : longStem.toList = 'a' :: List.replicate 250 'a' :=
  String.toList_ofList.trans List.replicate_succ

theorem eq_of_mem_longStem {c : Char} (mem : c ∈ longStem.toList) : c = 'a' := by
  rw [toList_longStem, ← List.replicate_succ] at mem
  exact List.eq_of_mem_replicate mem

theorem starts_longStem : Starts "a" longStem where
  starts := ⟨List.replicate 250 'a', toList_longStem.symm⟩
  plain mem := absurd (eq_of_mem_longStem mem) (by decide)

theorem isStem_longStem (t : FileTree) : IsStem t ⟨"", []⟩ [] longStem where
  isAt := ⟨rfl, rfl⟩
  ne_empty := starts_longStem.ne_empty (by decide)
  plain := starts_longStem.plain
  nul mem := absurd (eq_of_mem_longStem mem) (by decide)
  short := by
    have four : legacyExtension.utf8ByteSize = 4 := by decide
    rw [FilePath.isShort, FilePath.text_below_of_parts_eq_nil rfl rfl, String.utf8ByteSize_append,
      utf8ByteSize_longStem, four]
    decide

theorem isShort_longStem : FilePath.isShort ⟨"", []⟩ (longStem ++ extension) = false := by
  have five : extension.utf8ByteSize = 5 := by decide
  rw [FilePath.isShort, FilePath.text_below_of_parts_eq_nil rfl rfl, String.utf8ByteSize_append,
    utf8ByteSize_longStem, five]
  decide

/-- A reader that finds an entry that is too long for its size to be written. -/
def hugeReader : Reader := fun _ _ => .ok [⟨"data", 0, 0, 10 ^ 4300⟩]

/-- A container whose own name would be too long is not found under it, and an entry that is too
long keeps the containers from being indexed at all. -/
theorem not_kept_tooLong :
    (IsFileReader sizeReader ∧ IsStart "a" ∧ Starts "a" longStem ∧
      (single longStem).IsProper ∧
      (single longStem).readBytes (legacyPath ⟨"", []⟩ longStem) = .ok [1] ∧
      (single longStem).node? [longStem ++ extension] = none ∧
      ((index sizeReader ⟨"", []⟩ (startPattern "a") false).run
        ⟨single longStem, []⟩).2.files.readBytes (container ⟨"", []⟩ longStem) ≠ .ok [1]) ∧
    IsFileReader hugeReader ∧ ((index hugeReader ⟨"", []⟩ (startPattern "x") false).run
      ⟨assorted, []⟩).1.toOption.isNone = true := by
  constructor
  · have proper : (single longStem).IsProper := by
      refine .of_node? fun place inside there => ?_
      rw [node?_single longStem place inside] at there
      split at there
      · next same =>
        rw [same]
        refine ⟨?_, rfl⟩
        rw [List.forall_mem_singleton]
        exact (isStem_longStem (single longStem)).isName_legacy.plain
      · exact absurd rfl there
    refine ⟨isFileReader_sizeReader, by decide, starts_longStem, proper, ?_, ?_, ?_⟩
    · refine (isStem_longStem _).readBytes_legacy.2 ?_
      exact (node?_single longStem _ (List.cons_ne_nil _ _)).trans (if_pos rfl)
    · rw [node?_single longStem _ (List.cons_ne_nil _ _), if_neg]
      intro same
      exact append_legacyExtension_ne longStem longStem (List.singleton_inj.1 same).symm
    · intro read
      have short := ((isStem_longStem _).readBytes_container.1 read).1
      rw [isShort_longStem] at short
      cases short
  · have refusals : IsFileReader hugeReader := by
      intro t p fault failed
      cases failed
    refine ⟨refusals, ?_⟩
    rw [run_index_of_ok (w := ⟨assorted, []⟩) find_assorted]
    decide +kernel

end Containers

end PackPlan
