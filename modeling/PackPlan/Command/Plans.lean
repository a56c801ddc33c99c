import PackPlan.Command.HintFiles
import PackPlan.Command.PerPlatform
import PackPlan.Plan
import PackPlan.Seed

/-!
# Making plans

A plan is made for each platform from seed lists, further seeds and the hint files of
levels. It is printed, or written as a hint file, or both.

## Main definitions

* `Planning.readSeeds` — the seeds of lists and further ones, by pack
* `Planning.readLevels` — the level roots of hint files, by pack
* `Planning.Output` — what becomes of a plan
* `Planning.run` — makes the plans of platforms
-/

namespace PackPlan.Planning

variable (catalogs : CatalogSet) (platforms : List String)

/-- The records of a list of seeds, which has to be there. -/
def readSeedList (t : FileTree) (list : FilePath) : Attempt (List Record) := do
  let file ← Attempt.ofExcept ((HintFiles.seedFile list).mapError .path)
  if ← Attempt.ofExcept ((t.isFile? file).mapError .files) then
    HintFiles.read (HintFiles.resolver catalogs platforms) file t
  else throw (.input (.noSeedList file.text))

/-- The record of a seed, of which only the path is known. -/
def seedRecord (seed : Seed) : Record := { path := seed.path, pack := seed.pack }

/-- The seeds of lists and further ones, by pack. -/
def readSeeds (lists : List FilePath) (more : List Seed) (t : FileTree) : Attempt Groups := do
  let records ← lists.mapM (readSeedList catalogs platforms t)
  return Groups.collect (records.flatten ++ more.map seedRecord)

/-- The level roots of a hint file, which need not be there. -/
def readLevel (t : FileTree) (file : FilePath) : Attempt (List Record) := do
  if ← Attempt.ofExcept ((t.isFile? file).mapError .files) then
    let records ← HintFiles.read (HintFiles.resolver catalogs platforms) file t
    return records.filter (·.hasIdentity)
  else
    Attempt.tell (.warning s!"level asset hints ( {file} ) does not exist")
    return []

/-- The ids of records by pack, each once. -/
def rootsOf (records : List Record) : Table Int (List AssetId) :=
  (Groups.collect records).map fun _ group => (group.map (·.id)).eraseDups

/-- The level roots of hint files, by pack. -/
def readLevels (files : List FilePath) (t : FileTree) : Attempt (Table Int (List AssetId)) := do
  let records ← files.mapM (readLevel catalogs platforms t)
  return rootsOf records.flatten

/-- What becomes of a plan. -/
structure Output where
  /-- The list to which the hint file belongs, if one is to be written. -/
  list : Option FilePath := none
  /-- Whether the plan is printed. -/
  print : Bool := false
  /-- Whether files may be overwritten. -/
  overwrite : Bool := false

/-- Writes the hint file of the plan of a platform. -/
def write (s : Store) (list : FilePath) (overwrite : Bool) (platform : String) : Job Unit := do
  let file ← Job.ofExcept (HintFiles.planFile list platform)
  Job.guardOverwrite file overwrite
  Job.tell (.info s!"saving pak asset hints to ( {file} )...")
  HintFiles.write s.records file
  Job.tell (.info s!"wrote {file}")

/-- Makes the plan of a platform. -/
def make (input : PlanInput) (output : Output) (platform : String) : Job Unit := do
  let c ← Job.ofExcept (catalogs.get platform)
  let s ← Job.ofAttempt (Plan.build platform c input)
  if output.print then Job.ofAttempt (Plan.print platform s)
  match output.list with
  | some list => write s list output.overwrite platform
  | none => return ()

/-- Makes the plans of platforms, and tells for how many that failed. -/
def run (input : PlanInput) (output : Output) : Job Nat :=
  if output.list.isNone ∧ !output.print then throw (.input .noOutput)
  else PerPlatform.run (make catalogs input output) platforms

end PackPlan.Planning
