import PackPlan.Files.Search
import PackPlan.Json.Printer
import PackPlan.Notice

/-!
# Jobs

A job works on a workspace: it reads and changes files, tells notices, and may stop
with a fault. What it has changed and told by then remains. Files are written beside
the place where they belong and then moved there.

## Main definitions

* `PackPlan.Workspace` — the files, and what has been told
* `PackPlan.Job` — a computation on a workspace
* `Job.ask`, `Job.change` — operations on the files
* `Job.guardOverwrite` — no file is overwritten without leave
* `Job.writeFile` — a file with a content
-/

namespace PackPlan

/-- What a job works on. -/
structure Workspace where
  /-- The files. -/
  files : FileTree := .empty
  /-- What has been told. -/
  notices : List Notice := []

/-- A computation on a workspace that may stop with a fault. -/
abbrev Job (α : Type) := ExceptT Fault (StateM Workspace) α

namespace Job

variable {α : Type}

/-- What a job yields, and the workspace after it. -/
def run (job : Job α) (w : Workspace) : Except Fault α × Workspace :=
  StateT.run (ExceptT.run job) w

/-- A result that may be a fault. -/
def ofExcept (r : Except Fault α) : Job α := ExceptT.mk (pure r)

/-- A computation that leaves the files alone. -/
def ofAttempt (m : Attempt α) : Job α :=
  ExceptT.mk fun w =>
    let (r, notices) := StateT.run (ExceptT.run m) w.notices
    (r, { w with notices })

/-- A computation that looks at the files and leaves them alone. -/
def inspect (m : FileTree → Attempt α) : Job α := do ofAttempt (m (← get).files)

/-- What a job yields or how it stops, without stopping with it. -/
def outcome (job : Job α) : Job (Except Fault α) := ExceptT.lift (ExceptT.run job)

/-- One more notice. -/
def tell (n : Notice) : Job Unit := ofAttempt (Attempt.tell n)

/-- More notices. -/
def tellAll (notices : List Notice) : Job Unit := ofAttempt (notices.forM Attempt.tell)

/-! ### Files -/

/-- A question about the files. -/
def ask (question : FileTree → Except FileTree.Fault α) : Job α := do
  ofExcept ((question (← get).files).mapError .files)

/-- A change of the files. -/
def change (f : FileTree → Except FileTree.Fault FileTree) : Job Unit := do
  let files ← ask f
  modify fun w => { w with files }

/-- A path that may not be had. -/
def path (r : Except FilePath.Fault α) : Job α := ofExcept (r.mapError .path)

/-- Stops before a file would be overwritten, unless that is allowed. -/
def guardOverwrite (p : FilePath) (allowed : Bool) : Job Unit := do
  if (← ask (·.exists? p)) ∧ !allowed then throw (.overwrite p.text)

/-- Where a file is written before it is moved to its place. -/
def draftPath (p : FilePath) : Except FilePath.Fault FilePath := p.withSuffix (p.suffix ++ ".tmp")

/-- Makes a file with a content that may not be had, in a directory that is made if it
is not there. -/
def writeFile (p : FilePath) (content : Except Fault String) : Job Unit := do
  change (·.makeDirs p.parent)
  -- the content is asked for last: nothing of it is written if it cannot be had
  let draft ← path (draftPath p)
  let content ← ofExcept content
  change (·.writeBytes draft (Utf8.ofString content))
  change (·.move draft p)

end Job

end PackPlan
