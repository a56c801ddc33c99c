import PackPlan.Command.HintFiles
import PackPlan.Proofs.Files.Changes
import PackPlan.Proofs.Hints.Order
import PackPlan.Proofs.Job

/-!
# Hint files in a workspace

A hint file that has been written is there with its text, and is read as what the text says.

## Main results

* `Job.run_writeFile`, `Job.readBytes_of_run_writeFile` — a file that has been written has its
  content
* `HintFiles.run_write` — a hint file is written as its text
* `HintFiles.runFrom_read` — a hint file is read as its text
* `HintFiles.write_eq_of_perm` — records in another order, and whatever else they hold
-/

namespace PackPlan

variable {w w' : Workspace} {p : FilePath} {text : String} {told told' : List Notice}
  {rs rs' again : List Record}

/-- A file of the workspace itself is in a directory that is always there. -/
theorem FileTree.makeDirs_parent_of_name (name : String) :
    FileTree.empty.makeDirs (FilePath.parent ⟨"", [name]⟩) = .ok .empty := by
  have top : FilePath.parent ⟨"", [name]⟩ = ⟨"", []⟩ := rfl
  rw [top, FileTree.makeDirs]
  rfl

/-- A file is written beside its place and moved there. -/
theorem Job.run_writeFile {draft : FilePath} {above beside after : FileTree}
    (dirs : w.files.makeDirs p.parent = .ok above) (named : Job.draftPath p = .ok draft)
    (drafted : above.writeBytes draft (Utf8.ofString text) = .ok beside)
    (moved : beside.move draft p = .ok after) :
    (Job.writeFile p (.ok text)).run w = (.ok (), { w with files := after }) := by
  have made : (Job.change (·.makeDirs p.parent)).run w = (.ok (), { w with files := above }) := by
    rw [Job.run_change, dirs]
  have path : (Job.path (Job.draftPath p)).run { w with files := above } =
      (.ok draft, { w with files := above }) := by
    rw [named]
    rfl
  have wrote : (Job.change (·.writeBytes draft (Utf8.ofString text))).run
      { w with files := above } = (.ok (), { w with files := beside }) := by
    rw [Job.run_change, drafted]
  rw [Job.writeFile, Job.run_bind_ok made, Job.run_bind_ok path,
    Job.run_bind_ok (Job.run_ofExcept _), Job.run_bind_ok wrote, Job.run_change, moved]

/-- A file that has been written has its content. -/
theorem Job.readBytes_of_run_writeFile (proper : w.files.IsProper) {a : Unit}
    (h : (Job.writeFile p (.ok text)).run w = (.ok a, w')) :
    w'.files.readBytes p = .ok (Utf8.ofString text) := by
  rw [Job.writeFile] at h
  obtain ⟨_, above, dirs, h⟩ := Job.exists_of_run_bind h
  obtain ⟨draft, mid, named, h⟩ := Job.exists_of_run_bind h
  rw [Job.path, Job.run_ofExcept] at named
  obtain ⟨-, rfl⟩ := Prod.mk.inj named
  rw [Job.run_bind_ok (Job.run_ofExcept _)] at h
  obtain ⟨_, beside, drafted, moved⟩ := Job.exists_of_run_bind h
  have proper' := proper.makeDirs (Job.files_of_run_change dirs)
  have drafted := Job.files_of_run_change drafted
  exact FileTree.readBytes_of_move (proper'.writeBytes drafted)
    (FileTree.readBytes_of_writeBytes proper' drafted) (Job.files_of_run_change moved)

namespace HintFiles

theorem run_write {v : Json.Value} (written : (Hints.document rs).runFrom w.notices = (.ok v, told))
    (rendered : Hints.render v = .ok text) :
    (write rs p).run w = (Job.writeFile p (.ok text)).run { w with notices := told } := by
  rw [write, Job.run_bind, Job.run_ofAttempt, written]
  dsimp only
  rw [rendered]

theorem runFrom_read {resolver : Hints.Resolver} {t : FileTree}
    (content : t.readBytes p = .ok (Utf8.ofString text))
    (layout : ∀ c ∈ text.toList, Json.isLayout c = true)
    (read : (Hints.readDocument resolver p.text text).runFrom told = (.ok again, told')) :
    (HintFiles.read resolver p t).runFrom told = (.ok again, told') := by
  have bytes : (t.readBytes p).mapError Fault.files = .ok (Utf8.ofString text) := by
    rw [content]
    rfl
  rw [HintFiles.read, bytes, Attempt.runFrom_bind_ok (Attempt.runFrom_ofExcept _),
    Hints.readBytes_of_layout layout, read]

/-- The hint file of records of distinct assets is written in one way, in whatever order they
come. -/
theorem write_eq_of_perm (distinct : (rs.map Record.id).Nodup)
    (same : (rs.map Record.bare).Perm (rs'.map Record.bare)) (p : FilePath) :
    write rs p = write rs' p := by
  rw [write, write, Hints.document_eq_of_perm distinct same]

end HintFiles

end PackPlan
