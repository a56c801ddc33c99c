import PackPlan.Command.Bundles
import PackPlan.Command.Merging
import PackPlan.Command.Plans
import PackPlan.Command.Request
import PackPlan.Command.Seeds

/-!
# Sessions

A session meets the requests of a user, one call of the command line after the other,
on the same files.

## Main definitions

* `Session.platforms` — the platforms for which something is done
* `Request.perform` — meets a request
* `Session.Ending` — how a call ends
* `Session.call` — one call of the command line
-/

namespace PackPlan

namespace Session

/-- The platforms of a target. If the user names none they are those that have a
catalog, and there must be one. -/
def platforms (target : Target) : Job (List String) := do
  match Platform.readList target.platforms with
  | .error name => throw (.input (.platform name))
  | .ok [] =>
    let found ← Job.ofExcept (CatalogSet.discover (← get).files target.root)
    if found = [] then throw (.input (.noPlatforms target.root.text))
    let names := ", ".intercalate found
    Job.tell (.info s!"no platform specified, defaulting to platforms ( {names} )")
    return found
  | .ok named => return named

/-- The platforms of a target and their catalogs. -/
def catalogs (target : Target) : Job (List String × CatalogSet) := do
  let names ← platforms target
  let loaded ← Job.inspect fun t => CatalogSet.load t target.root names target.catalog
  return (names, loaded)

/-- The seeds that texts denote. -/
def readSeeds (texts : List String) : Job (List Seed) :=
  texts.mapM fun text => Job.ofAttempt (Seed.read text)

/-- The pack that is to override others; without one, that of the unassigned. -/
def override : Option Int → Except Fault Int
  | none => .ok unassigned
  | some n => if n < 0 then .error (.input .packSign) else .ok n

/-- The status of a call after which nothing is left to be done. -/
def done : Nat := 0

/-- The status of a call that failed. -/
def failed : Nat := 1

/-- The status of a call with that many failures. -/
def statusOf (failures : Nat) : Nat := if failures = 0 then done else failed

/-- Edits a list of seeds. -/
def editSeeds (r : SeedsRequest) : Job Nat := do
  let (names, catalogs) ← catalogs r.target
  Job.ofExcept catalogs.checkLoaded
  let add ← readSeeds r.add
  let override ← Job.ofExcept (override r.pack)
  SeedList.update catalogs names r.list { add, remove := r.remove, override }
  return done

/-- Makes plans. -/
def makePlans (r : PlansRequest) : Job Nat := do
  let (names, catalogs) ← catalogs r.target
  let add ← readSeeds r.add
  let levelFiles ← add.filterMapM fun seed => Job.path (Seed.levelHints? r.project seed.path)
  let (exclusions, notices) := catalogs.readExclusions names r.skip
  Job.tellAll notices
  -- everything is read before the pack is looked at, and nothing is written before that
  let seeds ← Job.inspect (Planning.readSeeds catalogs names r.lists add)
  let levels ← Job.inspect (Planning.readLevels catalogs names levelFiles)
  let override ← Job.ofExcept (override r.pack)
  let failures ← Planning.run catalogs names { seeds, levels, exclusions, override }
    { list := r.output, print := r.print, overwrite := r.overwrite }
  return statusOf failures

/-- Makes the profiling logs of bundles. -/
def logBundles (reader : Containers.Reader) (r : BundlesRequest) : Job Nat := do
  let names ← platforms r.target
  return statusOf (← Bundles.run reader r.list r.bundle r.overwrite names)

/-- Merges hint files. -/
def mergeHints (r : MergeRequest) : Job Nat := do
  let override ← Job.ofExcept (override r.pack)
  let _ ← Merging.run r.files r.output r.overwrite override
  return done

end Session

/-- Meets a request and tells its status. -/
def Request.perform (reader : Containers.Reader) : Request → Job Nat
  | .seeds r => Session.editSeeds r
  | .plans r => Session.makePlans r
  | .bundles r => Session.logBundles reader r
  | .merge r => Session.mergeHints r

namespace Session

/-- How a call of the command line ends. -/
inductive Ending
  /-- The arguments make no request. -/
  | refused (why : Arguments.Refusal)
  /-- The request was met, with this status. -/
  | finished (status : Nat)
  /-- A fault stopped the job. -/
  | stopped (fault : Fault)
  deriving DecidableEq, Repr

/-- The last words of a call that a fault has stopped. -/
def Ending.message? : Ending → Option String
  | .stopped fault => some s!"error: {fault.message}"
  | _ => none

/-- The status of a call. -/
def Ending.status : Ending → Nat
  | .refused .help => done
  | .refused .misuse => 2
  | .finished status => status
  | .stopped _ => failed

/-- What comes of a call. -/
structure Outcome where
  /-- How it ends. -/
  ending : Ending
  /-- The files after it. -/
  files : FileTree
  /-- What was shown as progress. -/
  out : String := ""
  /-- What was shown of warnings and errors. -/
  err : String := ""

/-- One call of the command line. -/
def call (reader : Containers.Reader) (args : List String) (files : FileTree) : Outcome :=
  match Request.read args with
  | .error why => { ending := .refused why, files }
  | .ok (request, verbose) =>
    let (result, after) := (request.perform reader).run { files }
    { ending := match result with
        | .ok status => .finished status
        | .error fault => .stopped fault
      files := after.files
      out := Notice.out verbose after.notices
      err := Notice.err after.notices }

end Session

end PackPlan
