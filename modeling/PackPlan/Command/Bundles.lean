import PackPlan.Archive.Containers
import PackPlan.Command.HintFiles
import PackPlan.Command.PerPlatform
import PackPlan.Log

/-!
# Profiling logs of bundles

The profiling log of a platform lists the assets of its plan with their places in the
containers of its bundle, and in pack zero the headers of what lies there besides.

## Main definitions

* `Bundles.logFile` — where the log of a platform stands
* `Bundles.log` — the items of the log of a plan
* `Bundles.make` — writes the log of a platform
* `Bundles.run` — writes the logs of platforms
-/

namespace PackPlan.Bundles

/-- The extension of a profiling log. -/
def logExtension : String := ".proflog"

/-- The bundle of a platform. -/
def bundleFor (bundle : FilePath) (platform : String) : Except Fault FilePath := do
  match ← (Platform.mark? bundle platform).mapError .path with
  | none => .error (.input (.foreignFile bundle.text platform))
  | some marked => .ok marked

/-- Where the log of the bundle of a platform stands. -/
def logFile (bundle : FilePath) : Except FilePath.Fault FilePath :=
  bundle.withExtension logExtension

/-- The pattern of the stems of the containers of a bundle. -/
def containerPattern (bundle : FilePath) : String :=
  String.ofList (Pattern.escape bundle.stem.toList) ++ "*"

/-- The items of the log of the records of a plan, given where everything lies. -/
def log (records : PathTable) (index : PathTable) : Attempt (List Log.Item) :=
  let (index, promoted) := Log.promote records.contains index
  Log.nonemptyProfiling index (Log.mergeHeaders (Groups.ofRecords records.values) promoted)

/-- Writes the profiling log of a platform. -/
def make (reader : Containers.Reader) (list bundle : FilePath) (overwrite : Bool)
    (platform : String) : Job Unit := do
  let plan ← Job.ofExcept (HintFiles.planFile list platform)
  let bundle ← Job.ofExcept (bundleFor bundle platform)
  let file ← Job.path (logFile bundle)
  -- containers are renamed only once the log may be written and the plan can be read
  Job.guardOverwrite file overwrite
  let records ← Job.inspect (HintFiles.read .none plan)
  Job.tell (.info s!"creating profiling log ( {file} )...")
  let index ← Containers.index reader bundle.parent (containerPattern bundle) overwrite
  let items ← Job.ofAttempt (log (PathTable.gather [records]) index.entries)
  Job.writeFile file (.ok (Log.text items))
  let entries := Log.count items
  Job.tell (.info s!"wrote {file} ({entries} entries, {index.containers.length} containers)")

/-- Writes the profiling logs of platforms, and tells for how many that failed. -/
def run (reader : Containers.Reader) (list bundle : FilePath) (overwrite : Bool)
    (platforms : List String) : Job Nat :=
  PerPlatform.run (make reader list bundle overwrite) platforms

end PackPlan.Bundles
