import Mathlib.Order.Bounds.Basic
import PackPlan.Proofs.Command.HintFiles
import PackPlan.Proofs.Hints.Rereading
import PackPlan.Proofs.PathTable

/-!
# The first record of a path in a hint file

A table that gathers records keeps the first one of each path, whatever its pack. The packs of a
hint file ascend, as numbers and not as the texts of their keys, and its records are read in the
order in which they stand there; so the first record of a path is one of its least pack, also
where several assets have the path.

## Main definitions

* `PathTable.HoldsLeast` — of each path a table holds a record of the least pack

## Main results

* `PathTable.holdsLeast_gather` — what is gathered from records in the order of a hint file
* `HintFiles.holdsLeast_of_write` — hint files written, read back and gathered
-/

namespace PackPlan

variable {rs rs' records : List Record} {r s : Record} {t : PathTable} {path : String}

namespace Record

theorem pack_le_of_inFileOrder (ordered : r.inFileOrder s) : r.pack ≤ s.pack := by
  rcases ordered with below | ⟨same, -⟩
  · exact below.le
  · exact same.le

/-- The packs of the records of a path. -/
def packsAt (rs : List Record) (path : String) : Set Int :=
  {pack | ∃ r ∈ rs, r.path = path ∧ r.pack = pack}

/-- In the order of a hint file the first record of a path has the least pack of its records. -/
theorem isLeast_of_find? (ordered : rs.Pairwise inFileOrder)
    (found : rs.find? (·.path = path) = some r) : IsLeast (packsAt rs path) r.pack := by
  have here : r.path = path := by simpa using List.find?_some found
  refine ⟨⟨r, List.mem_of_find?_eq_some found, here, rfl⟩, ?_⟩
  rintro _ ⟨s, mem, there, rfl⟩
  -- no record of the path stands before the first one
  obtain ⟨-, before, after, rfl, others⟩ := List.find?_eq_some_iff_append.1 found
  rcases List.mem_append.1 mem with early | late
  · simpa [there] using others s early
  · rcases List.mem_cons.1 late with rfl | late
    · exact le_rfl
    · have tail := (List.pairwise_append.1 ordered).2.1
      exact pack_le_of_inFileOrder (List.rel_of_pairwise_cons tail late)

theorem packsAt_congr (same : rs.Perm rs') : packsAt rs path = packsAt rs' path := by
  unfold packsAt
  simp only [same.mem_iff]

theorem packsAt_map_bare (rs : List Record) (path : String) :
    packsAt (rs.map bare) path = packsAt rs path := by
  unfold packsAt
  simp only [List.mem_map, exists_exists_and_eq_and, bare]

end Record

namespace PathTable

/-- Of each path of the records the table holds a record, and those that it holds have the least
pack of their path. -/
structure HoldsLeast (t : PathTable) (rs : List Record) : Prop where
  found : ∀ r ∈ rs, ∃ s, t.get? r.path = some s
  least : ∀ path s, t.get? path = some s → IsLeast (Record.packsAt rs path) s.pack

theorem holdsLeast_gather (ordered : rs.Pairwise Record.inFileOrder) :
    (gather [rs]).HoldsLeast rs := by
  have first : ∀ path, (gather [rs]).get? path = rs.find? (·.path = path) := by
    intro path
    rw [get?_gather, List.flatten_singleton]
  constructor
  case found =>
    intro r mem
    rw [first, ← Option.isSome_iff_exists, List.find?_isSome]
    exact ⟨r, mem, decide_eq_true rfl⟩
  case least =>
    intro path s there
    rw [first] at there
    exact Record.isLeast_of_find? ordered there

theorem HoldsLeast.of_perm (least : t.HoldsLeast rs) (same : rs.Perm rs') : t.HoldsLeast rs' :=
  ⟨fun r mem => least.found r (same.mem_iff.2 mem),
    fun path s there => Record.packsAt_congr same ▸ least.least path s there⟩

/-- What a hint file does not say of records makes no difference. -/
theorem HoldsLeast.of_map_bare (least : t.HoldsLeast (rs.map Record.bare)) : t.HoldsLeast rs :=
  ⟨fun r mem => least.found r.bare (List.mem_map_of_mem mem),
    fun path s there => Record.packsAt_map_bare rs path ▸ least.least path s there⟩

end PathTable

namespace HintFiles

/-- Records that can be written are written as one text, unless the files of the workspace stand
in the way, and the file is read as what it says of them, in the order in which it says it. -/
theorem exists_runFrom_read_of_write (p : FilePath) (writable : ∀ r ∈ records, r.Writable) :
    ∃ text warnings,
      (∀ w, (write records p).run w = (Job.writeFile p (.ok text)).run
        { w with notices := w.notices ++ warnings }) ∧
      ∀ w w', w.files.IsProper → (write records p).run w = (.ok (), w') →
        ∀ told, (read .none p w'.files).runFrom told =
          (.ok (((Hints.fileOrder records).filter Record.isNamed).map Record.bare), told) := by
  obtain ⟨v, warnings, text, written, rendered, layout, back⟩ := Hints.exists_text
    (fun r mem => ⟨(writable r mem).pack_nonneg, (writable r mem).pack_short⟩)
    fun r mem _ => Hints.idFits_of_writable (writable r mem)
  have wrote : ∀ w, (write records p).run w = (Job.writeFile p (.ok text)).run
      { w with notices := w.notices ++ warnings } := fun w => run_write (written w.notices) rendered
  have bare : ∀ r ∈ (Hints.fileOrder records).filter Record.isNamed, r.reread = r.bare := by
    intro r mem
    have stored := (Hints.filter_fileOrder_perm Record.isNamed records).mem_iff.1 mem
    exact Hints.reread_eq_bare (writable r (List.mem_filter.1 stored).1)
  refine ⟨text, warnings, wrote, fun w w' proper done told => ?_⟩
  rw [wrote] at done
  have content := Job.readBytes_of_run_writeFile (w := ⟨w.files, w.notices ++ warnings⟩) proper done
  rw [runFrom_read content layout (back .none p.text told)]
  simp only [Hints.readBack_none, List.flatMap_eq_nil_iff.2 fun _ _ => rfl, List.append_nil,
    List.map_congr_left bare]

/-- Records that can be written are written as one text, unless the files of the workspace stand
in the way. The file that is there then is read without a notice, and the first records of the
paths in it have the least packs: each path of a record that has been written stands for the
least pack of the records of this path. -/
theorem holdsLeast_of_write (records : List Record) (p : FilePath)
    (writable : ∀ r ∈ records, r.Writable) :
    ∃ text warnings again,
      (∀ w, (write records p).run w = (Job.writeFile p (.ok text)).run
        { w with notices := w.notices ++ warnings }) ∧
      (∀ w w', w.files.IsProper → (write records p).run w = (.ok (), w') →
        ∀ told, (read .none p w'.files).runFrom told = (.ok again, told)) ∧
      (PathTable.gather [again]).HoldsLeast (Hints.stored records) := by
  obtain ⟨text, warnings, wrote, back⟩ := exists_runFrom_read_of_write p writable
  refine ⟨text, warnings, _, wrote, back, ?_⟩
  have ordered := (Groups.pairwise_ofRecords records false).filter Record.isNamed
  have least := PathTable.holdsLeast_gather
    (List.pairwise_map.2 ordered : (List.map Record.bare _).Pairwise Record.inFileOrder)
  exact least.of_map_bare.of_perm (Hints.filter_fileOrder_perm Record.isNamed records)

/-- Two assets at one path, in the packs 10 and 9, the keys of which are in the other order as
texts. -/
def twoAtPath : List Record :=
  [{ id := ⟨⟨1, Guid.one_lt⟩, 0⟩, path := "p", pack := 10 },
    { id := ⟨⟨2, Guid.two_lt⟩, 0⟩, path := "p", pack := 9 }]

/-- Where there is nothing yet, their hint file can be written, and the path stands for the pack
9 when it has been read. -/
theorem holdsLeast_of_write_twoAtPath :
    (∀ r ∈ twoAtPath, r.Writable) ∧
    ∃ w again, (write twoAtPath ⟨"", ["h"]⟩).run ⟨.empty, []⟩ = (.ok (), w) ∧
      (∀ told, (read .none ⟨"", ["h"]⟩ w.files).runFrom told = (.ok again, told)) ∧
      ∃ s, (PathTable.gather [again]).get? "p" = some s ∧ s.pack = 9 := by
  have writable : ∀ r ∈ twoAtPath, r.Writable := by
    intro r mem
    simp only [twoAtPath, List.mem_cons, List.not_mem_nil, or_false] at mem
    rcases mem with rfl | rfl <;>
      exact Hints.writable_of_small (by decide) (by decide) (by decide) (by decide)
  obtain ⟨text, warnings, again, wrote, back, found, least⟩ :=
    holdsLeast_of_write twoAtPath ⟨"", ["h"]⟩ writable
  have done := (wrote ⟨.empty, []⟩).trans (Job.run_writeFile (w := ⟨.empty, [] ++ warnings⟩)
    (FileTree.makeDirs_parent_of_name _) rfl rfl rfl)
  have stored : Hints.stored twoAtPath = twoAtPath := by decide
  rw [stored] at found least
  obtain ⟨s, there⟩ := found _ (List.mem_cons_self ..)
  obtain ⟨⟨r, mem, -, pack⟩, below⟩ := least "p" s there
  have le : s.pack ≤ 9 := below ⟨_, List.mem_cons_of_mem _ (List.mem_cons_self ..), rfl, rfl⟩
  have ge : ∀ r ∈ twoAtPath, 9 ≤ r.pack := by decide
  exact ⟨writable, _, again, done, back _ _ (by decide) done, s, there,
    le_antisymm le (pack ▸ ge r mem)⟩

end HintFiles

end PackPlan
