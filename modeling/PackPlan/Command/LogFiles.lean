import PackPlan.Job
import PackPlan.Log

/-!
# Log files

Logs are written into files. How many records a log has is told by its lines: those of records
have tabs in them, and no others do.

## Main definitions

* `LogFiles.write` — a log in a file
* `LogFiles.writeProfiling`, `LogFiles.writeSampling` — either log of groups of records
-/

namespace PackPlan.LogFiles

/-- Writes a log, and yields how many of its lines have a tab in them. -/
def write (items : List Log.Item) (p : FilePath) : Job Nat := do
  Job.writeFile p (.ok (Log.text items))
  return (items.map (·.text)).countP (·.toList.contains '\t')

/-- Writes the profiling log of groups of records, which must not be empty. -/
def writeProfiling (index : PathTable) (groups : Groups) (p : FilePath) : Job Nat := do
  write (← Job.ofAttempt (Log.nonemptyProfiling index groups)) p

/-- Writes the sampling log of groups of records. -/
def writeSampling (groups : Groups) (p : FilePath) : Job Nat := do
  write (← Job.ofAttempt (Log.sampling groups)) p

end PackPlan.LogFiles
