import PackPlan.Command.HintFiles
import PackPlan.Seed

/-!
# Editing a seed list

Seeds are added to a list and removed from it. The list is kept as a hint file; an
added seed that the catalogs do not know and a removed one that the list does not hold
are passed over with a warning.

## Main definitions

* `SeedList.Edit` — what is to be added and removed
* `SeedList.apply` — the store of a list after an edit
* `SeedList.update` — edits the list in its file
-/

namespace PackPlan.SeedList

/-- What is to be added to a list of seeds and removed from it. -/
structure Edit where
  /-- The seeds to add. -/
  add : List Seed := []
  /-- The paths of the seeds to remove. -/
  remove : List String := []
  /-- The pack that overrides those of the added seeds, if it is not that of the
  unassigned. -/
  override : Int := unassigned

variable (catalogs : CatalogSet) (platforms : List String)

/-- The store with more seeds, and the ids that were added. -/
def addSeeds : List Seed → Store → Telling (Store × List AssetId)
  | [], s => return (s, [])
  | seed :: seeds, s => do
    let (id, notices) := catalogs.resolveId seed.path platforms
    notices.forM Telling.tell
    if id.isValid then
      let (s, _) := s.addIdentified { id, path := seed.path, pack := seed.pack }
      let (s, ids) ← addSeeds seeds s
      return (s, id :: ids)
    else
      Telling.tell
        (.warning s!"skipping seed ( {seed.path} ), it is unknown to the asset catalog")
      addSeeds seeds s

/-- The store without the seeds at some paths; `list` is the name of the list. -/
def removeSeeds (list : String) : List String → Store → Telling Store
  | [], s => return s
  | path :: paths, s => do
    let (id, notices) := catalogs.resolveId (AssetPath.normalize path) platforms
    notices.forM Telling.tell
    if !s.contains id then Telling.tell (.warning s!"seed ( {path} ) is not in {list}")
    removeSeeds list paths (s.remove id)

/-- The store of a list after an edit. -/
def apply (list : String) (edit : Edit) (s : Store) : Telling Store := do
  let (s, added) ← addSeeds catalogs platforms edit.add s
  let s ← removeSeeds catalogs platforms list edit.remove s
  return (s.overridePacks edit.override (some added)).1

/-- The store of the list in a file; there is nothing in a file that is not there. -/
def readStore (p : FilePath) (t : FileTree) : Attempt Store := do
  if ← Attempt.ofExcept ((t.exists? p).mapError .files) then
    let records ← HintFiles.read (HintFiles.resolver catalogs platforms) p t
    Attempt.ofExcept (HintFiles.addAll .empty records)
  else return .empty

/-- Edits the list that belongs to a file of seeds. -/
def update (list : FilePath) (edit : Edit) : Job Unit := do
  let file ← Job.path (HintFiles.seedFile list)
  let before ← Job.inspect (readStore catalogs platforms file)
  let after ← Job.ofAttempt (Attempt.ofTelling (apply catalogs platforms file.name edit before))
  Job.tell (.info s!"saving seed asset hints to ( {file} )...")
  HintFiles.write after.records file
  Job.tell (.info s!"wrote {file}")

end PackPlan.SeedList
