import PackPlan.Command.Arguments
import PackPlan.Files.FilePath
import PackPlan.Record

/-!
# Requests

A request is one of four things that can be asked for: to edit a list of seeds, to make
plans, to make the profiling logs of bundles, and to merge hint files. Arguments name it
and say what it needs to know.

## Main definitions

* `PackPlan.Request` — what is asked for
* `Request.switches`, `Request.required` — the switches that each of them knows and needs
* `Request.read` — the request that arguments make
-/

namespace PackPlan

/-- The platforms for which something is done, and where their catalogs are. -/
structure Target where
  /-- The platforms as the user names them. -/
  platforms : List String
  /-- The directory below which catalogs are sought. -/
  root : FilePath
  /-- A catalog for all platforms. -/
  catalog : Option FilePath := none
  deriving Repr

/-- What editing a list of seeds needs to know. -/
structure SeedsRequest where
  /-- The platforms, all of which have to know the seeds. -/
  target : Target
  /-- The list. -/
  list : FilePath
  /-- The seeds to add. -/
  add : List String
  /-- The seeds to remove. -/
  remove : List String
  /-- The pack to be forced on the added seeds. -/
  pack : Option Int
  deriving Repr

/-- What making plans needs to know. -/
structure PlansRequest where
  /-- The platforms. -/
  target : Target
  /-- The lists of seeds. -/
  lists : List FilePath
  /-- More seeds. -/
  add : List String
  /-- What is passed over. -/
  skip : List String
  /-- The list of assets to which the hint files belong. -/
  output : Option FilePath
  /-- The directory below which levels have their hint files. -/
  project : FilePath
  /-- Whether the plans are printed. -/
  print : Bool
  /-- Whether files may be overwritten. -/
  overwrite : Bool
  /-- The pack to be forced on all records. -/
  pack : Option Int
  deriving Repr

/-- What making profiling logs needs to know. -/
structure BundlesRequest where
  /-- The platforms. -/
  target : Target
  /-- The list of assets to which the hint files belong. -/
  list : FilePath
  /-- The bundle. -/
  bundle : FilePath
  /-- Whether files may be overwritten. -/
  overwrite : Bool
  deriving Repr

/-- What merging hint files needs to know. -/
structure MergeRequest where
  /-- The hint files. -/
  files : List FilePath
  /-- The sampling log. -/
  output : FilePath
  /-- Whether files may be overwritten. -/
  overwrite : Bool
  /-- The pack to be forced on all records. -/
  pack : Option Int
  deriving Repr

/-- What is asked for. -/
inductive Request
  /-- To edit a list of seeds. -/
  | seeds (r : SeedsRequest)
  /-- To make plans. -/
  | plans (r : PlansRequest)
  /-- To make profiling logs. -/
  | bundles (r : BundlesRequest)
  /-- To merge hint files. -/
  | merge (r : MergeRequest)
  deriving Repr

namespace Request

open Arguments (Given Refusal Switch)

/-! ### Switches -/

/-- The switches of every request for platforms. -/
def targetSwitches : List Switch :=
  [⟨"--platform", .text⟩, ⟨"--verbose", .flag⟩, ⟨"--catalog-root", .text⟩]

/-- The switches of editing a list of seeds. -/
def seedsSwitches : List Switch :=
  targetSwitches ++
    [⟨"--catalog-file", .text⟩, ⟨"--pack-id", .number⟩, ⟨"--seed-list-file", .text⟩,
      ⟨"--add-seed", .text⟩, ⟨"--remove-seed", .text⟩]

/-- The switches of making plans. -/
def plansSwitches : List Switch :=
  targetSwitches ++
    [⟨"--catalog-file", .text⟩, ⟨"--pack-id", .number⟩, ⟨"--seed-list-file", .text⟩,
      ⟨"--add-seed", .text⟩, ⟨"--skip", .text⟩, ⟨"--asset-list-file", .text⟩,
      ⟨"--project-root", .text⟩, ⟨"--print", .flag⟩, ⟨"--allow-overwrites", .flag⟩,
      ⟨"--workers", .number⟩]

/-- The switches of making profiling logs. -/
def bundlesSwitches : List Switch :=
  targetSwitches ++
    [⟨"--asset-list-file", .text⟩, ⟨"--output-bundle-path", .text⟩,
      ⟨"--allow-overwrites", .flag⟩, ⟨"--workers", .number⟩]

/-- The switches of merging hint files. -/
def mergeSwitches : List Switch :=
  [⟨"--asset-hints-file", .text⟩, ⟨"--output-sampling-log", .text⟩,
    ⟨"--allow-overwrites", .flag⟩, ⟨"--verbose", .flag⟩, ⟨"--pack-id", .number⟩]

/-- The switches that a command knows, if there is such a command. -/
def switches : String → Option (List Switch)
  | "seeds" => some seedsSwitches
  | "asset-lists" => some plansSwitches
  | "bundles" => some bundlesSwitches
  | "merge-hints" => some mergeSwitches
  | _ => none

/-- The switches without which a command cannot be. -/
def required : String → List String
  | "seeds" => ["--seed-list-file"]
  | "bundles" => ["--asset-list-file", "--output-bundle-path"]
  | "merge-hints" => ["--asset-hints-file", "--output-sampling-log"]
  | _ => []

/-! ### Reading -/

/-- The directory below which catalogs are sought if none is named. -/
def defaultRoot : String := "Cache"

/-- The root of a project if none is named. -/
def defaultProject : String := "."

/-- The last path given with a switch. -/
def path? (g : Given) (name : String) : Option FilePath := (g.last? name).map FilePath.ofString

/-- The last path given with a switch, or another one. -/
def pathD (g : Given) (name default : String) : FilePath :=
  FilePath.ofString ((g.last? name).getD default)

/-- All paths given with a switch. -/
def paths (g : Given) (name : String) : List FilePath := (g.all name).map FilePath.ofString

/-- The platforms that switches name, and where their catalogs are. -/
def target (g : Given) : Target :=
  { platforms := g.all "--platform"
    root := pathD g "--catalog-root" defaultRoot
    catalog := path? g "--catalog-file" }

/-- The request that a command makes with the switches given. -/
def ofGiven (command : String) (g : Given) : Option Request :=
  match command with
  | "seeds" => some <| .seeds
    { target := target g
      list := pathD g "--seed-list-file" ""
      add := g.all "--add-seed"
      remove := g.all "--remove-seed"
      pack := g.number? "--pack-id" }
  | "asset-lists" => some <| .plans
    { target := target g
      lists := paths g "--seed-list-file"
      add := g.all "--add-seed"
      skip := g.all "--skip"
      output := path? g "--asset-list-file"
      project := pathD g "--project-root" defaultProject
      print := g.has "--print"
      overwrite := g.has "--allow-overwrites"
      pack := g.number? "--pack-id" }
  | "bundles" => some <| .bundles
    { target := target g
      list := pathD g "--asset-list-file" ""
      bundle := pathD g "--output-bundle-path" ""
      overwrite := g.has "--allow-overwrites" }
  | "merge-hints" => some <| .merge
    { files := paths g "--asset-hints-file"
      output := pathD g "--output-sampling-log" ""
      overwrite := g.has "--allow-overwrites"
      pack := g.number? "--pack-id" }
  | _ => none

/-- The request that arguments make, and whether details are to be shown. -/
def read (args : List String) : Except Refusal (Request × Bool) := do
  let (command, rest, stray) ← Arguments.splitCommand args
  match switches command with
  | none => throw .misuse
  | some known =>
    let given ← Arguments.read known (required command) rest
    match ofGiven command given, stray with
    | some request, false => return (request, given.has "--verbose")
    | _, _ => throw .misuse

end Request

end PackPlan
