import PackPlan.Catalog.CatalogSet
import PackPlan.Hints.Writer
import PackPlan.Job
import PackPlan.Store

/-!
# Hint files in a workspace

Hint files are read with the catalogs of several platforms as resolvers, and written
from the records of a store.

## Main definitions

* `HintFiles.resolver` — catalogs as a resolver
* `HintFiles.read` — the records of a hint file
* `HintFiles.write` — a hint file of records
* `HintFiles.seedFile`, `HintFiles.planFile` — where hint files stand
* `HintFiles.addAll` — records added to a store
-/

namespace PackPlan.HintFiles

/-- The extension of a hint file of seeds. -/
def seedExtension : String := "seed.assethints"

/-- The extension of the hint file of a plan. -/
def planExtension : String := "pak.assethints"

/-- The catalogs of some platforms as a resolver. -/
def resolver (catalogs : CatalogSet) (platforms : List String) : Hints.Resolver :=
  ⟨(catalogs.resolveId · platforms), (catalogs.resolvePath · platforms)⟩

/-- The records of the hint file at a path. -/
def read (r : Hints.Resolver) (p : FilePath) (t : FileTree) : Attempt (List Record) := do
  let bytes ← Attempt.ofExcept ((t.readBytes p).mapError .files)
  Hints.readBytes r p.text bytes

/-- Writes a hint file of records. -/
def write (records : List Record) (p : FilePath) : Job Unit := do
  let document ← Job.ofAttempt (Hints.document records)
  Job.writeFile p (Hints.render document)

/-- The hint file of a list of seeds. -/
def seedFile (list : FilePath) : Except FilePath.Fault FilePath :=
  list.withExtension seedExtension

/-- The hint file of the plan of a platform. -/
def planFile (list : FilePath) (platform : String) : Except Fault FilePath := do
  match ← (Platform.mark? list platform).mapError .path with
  | none => .error (.input (.foreignFile list.text platform))
  | some marked => (marked.withExtension planExtension).mapError .path

/-- The store with more records. -/
def addAll (s : Store) (records : List Record) : Except Fault Store :=
  match records.foldlM (fun s r => (s.add? r).map Prod.fst) s with
  | some s => .ok s
  | none => .error .namelessRecord

end PackPlan.HintFiles
