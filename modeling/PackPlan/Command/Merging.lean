import PackPlan.Command.HintFiles
import PackPlan.Log

/-!
# Merging hint files

The records of several hint files are brought together in one sampling log.

## Main definitions

* `Merging.gather` — the records of hint files in one store
* `Merging.run` — writes the sampling log of hint files
-/

namespace PackPlan.Merging

/-- The store with the records of hint files, one file after the other. -/
def gather (t : FileTree) : List FilePath → Store → Attempt Store
  | [], s => return s
  | file :: files, s => do
    let records ← HintFiles.read .none file t
    let s ← Attempt.ofExcept (HintFiles.addAll s records)
    gather t files s

/-- Writes the sampling log of hint files, and tells how many records it has. -/
def run (files : List FilePath) (out : FilePath) (overwrite : Bool) (override : Int) :
    Job Nat := do
  if files.isEmpty then throw (.input .noHintFiles)
  Job.guardOverwrite out overwrite
  let s ← Job.inspect fun t => gather t files .empty
  let merged := (s.overridePacks override none).1
  let items ← Job.ofAttempt (Log.sampling (Groups.ofRecords merged.records))
  Job.writeFile out (.ok (Log.text items))
  let entries := Log.count items
  Job.tell (.info s!"wrote {out} ({entries} entries)")
  return entries

end PackPlan.Merging
