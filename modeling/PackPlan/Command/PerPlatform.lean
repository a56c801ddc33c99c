import PackPlan.Job
import PackPlan.Table

/-!
# Work for several platforms

The same task is done for each of several platforms. All tasks are done before anything
is said of those that failed; a failure of one platform is reported and does not keep
the others from theirs.

## Main definitions

* `PerPlatform.report` — what is said of the outcomes of tasks
* `PerPlatform.run` — a task for each platform, and how many failed
-/

namespace PackPlan.PerPlatform

/-- How a task ended for each platform. -/
abbrev Outcomes := Table String (Except Fault Unit)

/-- Reports the failures among outcomes in their order and counts them. The first
failure of a kind that no job survives stops the job. -/
def report : List (String × Except Fault Unit) → Attempt Nat
  | [] => return 0
  | (_, .ok _) :: outcomes => report outcomes
  | (platform, .error fault) :: outcomes => do
    if fault.isRecoverable then
      Attempt.tell (.error s!"[{platform}] {fault.message}")
      let failures ← report outcomes
      return failures + 1
    else throw fault

/-- The outcomes of a task for each of several platforms, done one after the other. -/
def outcomes (task : String → Job Unit) (platforms : List String) : Job Outcomes :=
  platforms.foldlM
    (fun done platform => do return done.insert platform (← (task platform).outcome)) .empty

/-- Does a task for each of several platforms, and tells how many failed. -/
def run (task : String → Job Unit) (platforms : List String) : Job Nat := do
  let done ← outcomes task platforms
  Job.ofAttempt (report done.entries)

end PackPlan.PerPlatform
