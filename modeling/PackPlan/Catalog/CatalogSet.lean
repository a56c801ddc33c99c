import PackPlan.Catalog.Loader
import PackPlan.Platform

/-!
# The catalogs of several platforms

A job for several platforms has a catalog for each, but for those whose catalog could
not be loaded. Questions to all of them are answered together: an asset is known by a
path only if every platform knows it.

## Main definitions

* `PackPlan.CatalogSet` — the catalogs of several platforms
* `CatalogSet.load` — the catalogs of files
* `CatalogSet.discover` — the platforms that have a catalog
* `CatalogSet.resolveId`, `CatalogSet.resolvePath` — answers of several catalogs
* `PackPlan.Exclusions`, `CatalogSet.readExclusions` — the assets to be passed over
-/

namespace PackPlan

/-- The catalogs of several platforms. -/
structure CatalogSet where
  /-- The catalogs. -/
  catalogs : Table String Catalog := .empty
  /-- What went wrong for the platforms that have none. -/
  failed : Table String Fault := .empty

/-- The assets that a walk passes over. -/
structure Exclusions where
  /-- Assets by id. -/
  ids : List AssetId := []
  /-- Assets by the form of their path. -/
  patterns : List String := []

namespace CatalogSet

/-- The platforms that have a catalog. -/
def platforms (s : CatalogSet) : List String := s.catalogs.keys

/-- Those of the given platforms that have a catalog; with none given, all that have. -/
def select (s : CatalogSet) (among : List String) : List String :=
  if among = [] then s.platforms else among.filter s.catalogs.contains

/-- The catalog of a platform. -/
def get (s : CatalogSet) (platform : String) : Except Fault Catalog :=
  match s.failed.get? platform, s.catalogs.get? platform with
  | some fault, _ => .error fault
  | none, some c => .ok c
  | none, none => .error (.noPlatform platform)

/-- The first platform that failed stops a job for which all are needed. -/
def checkLoaded (s : CatalogSet) : Except Fault Unit :=
  match s.failed.values with
  | fault :: _ => .error fault
  | [] => .ok ()

/-- The catalogs of some platforms. -/
def selected (s : CatalogSet) (among : List String) : List (String × Catalog) :=
  (s.select among).filterMap fun p => (s.catalogs.get? p).map (p, ·)

/-! ### Answers -/

/-- The id of the asset at a path, if every platform knows it; where one does not, a
warning says so. Of different answers the last counts. -/
def resolveId (s : CatalogSet) (path : String) (among : List String) :
    AssetId × List Notice :=
  let answers := (s.selected among).map fun (p, c) => (p, c.idOf path)
  let unknown := answers.filter fun a => !a.2.isValid
  (if unknown = [] then (answers.getLast?.map Prod.snd).getD .none else .none,
    unknown.map fun a =>
      .warning s!"asset catalog does not know about the asset ( {path} ) on platform ( {a.1} )")

/-- The path of an asset, from the first platform that knows one; where none does, a
warning says so. -/
def resolvePath (s : CatalogSet) (id : AssetId) (among : List String) :
    String × List Notice :=
  match (s.selected among).find? fun a => a.2.pathOf id ≠ "" with
  | some (_, c) => (c.pathOf id, [])
  | none =>
    let names := ", ".intercalate (s.select among)
    ("", [.warning s!"unable to resolve path of asset ( {id.text} ) for platforms ( {names} )"])

/-- The exclusions that entries denote: patterns as they are, and the assets at the
other paths, where they are known. -/
def readExclusions (s : CatalogSet) (among : List String) :
    List String → Exclusions × List Notice
  | [] => ({}, [])
  | entry :: entries =>
    let (rest, notices) := readExclusions s among entries
    if Pattern.isWildcard entry then ({ rest with patterns := entry :: rest.patterns }, notices)
    else
      let (id, more) := s.resolveId entry among
      (if id.isValid ∧ id ∉ rest.ids then { rest with ids := id :: rest.ids } else rest,
        more ++ notices)

/-! ### Loading -/

/-- The name of the file that holds a catalog. -/
def fileName : String := "assetcatalog.tsv"

/-- Where the catalog of a platform stands below a root. -/
def pathFor (root : FilePath) (platform : String) : FilePath := (root.join platform).join fileName

/-- The platforms that have a catalog below a root. -/
def discover (t : FileTree) (root : FilePath) : Except Fault (List String) :=
  Platform.known.filterM fun p => (t.isFile? (pathFor root p)).mapError .files

/-- The catalog in a file. -/
def loadFile (t : FileTree) (path : FilePath) : Attempt Catalog := do
  let there ← Attempt.ofExcept ((t.isFile? path).mapError .files)
  if !there then throw (.noCatalog path.text)
  else
    let bytes ← Attempt.ofExcept ((t.readBytes path).mapError .files)
    Catalog.load path.text bytes

/-- The set with what came of loading the catalog of a platform. Faults of values and
files are kept for the platform; others stop the job. -/
def put (s : CatalogSet) (platform : String) : Except Fault Catalog → Except Fault CatalogSet
  | .ok c => .ok { s with catalogs := s.catalogs.insert platform c }
  | .error fault =>
    if fault.isRecoverable then .ok { s with failed := s.failed.insert platform fault }
    else .error fault

/-- The set with the catalogs of more platforms, each in the same file or below a root. -/
def loadFrom (t : FileTree) (root : FilePath) (file? : Option FilePath) :
    List String → CatalogSet → Attempt CatalogSet
  | [], s => return s
  | platform :: rest, s => do
    let path := file?.getD (pathFor root platform)
    Attempt.tell (.detail s!"loading asset catalog from ( {path} )")
    let loaded ← ExceptT.lift (ExceptT.run (loadFile t path))
    let s ← Attempt.ofExcept (s.put platform loaded)
    loadFrom t root file? rest s

/-- The catalogs of platforms, each in the same file or below a root. -/
def load (t : FileTree) (root : FilePath) (platforms : List String)
    (file? : Option FilePath) : Attempt CatalogSet :=
  loadFrom t root file? platforms {}

end CatalogSet

end PackPlan
