import PackPlan.AssetPath
import PackPlan.Job
import PackPlan.PathTable

/-!
# Containers

Containers are archives in a directory. Their names end in a canonical extension, or
in a legacy one, in which case they are renamed before they are read. The index of
containers says for every asset path in which container it lies and where.

## Main definitions

* `Containers.find` — the containers whose names match a pattern
* `Containers.rename` — a container under its canonical name
* `Containers.Reader`, `Containers.zipReader` — how the entries of a container are read
* `Containers.index` — the index of the containers of a directory
-/

namespace PackPlan.Containers

/-- The extension of a container that has not been renamed. -/
def legacyExtension : String := ".pak"

/-- The extension of a container. -/
def extension : String := ".bpak"

/-! ### Finding and renaming -/

/-- The paths below a directory that match a pattern. -/
def search (t : FileTree) (directory : FilePath) (pattern : String) :
    Except Fault (List FilePath) := do
  let levels ← (Search.levels pattern).mapError .search
  if ← (t.isDir? directory).mapError .files then
    (Search.select t levels directory).mapError .files
  else return []

/-- The stems of the files below a directory whose names are a pattern and an
extension. -/
def stems (t : FileTree) (directory : FilePath) (pattern extension : String) :
    Except Fault (List String) := do
  let found ← search t directory (pattern ++ extension)
  let files ← found.filterM fun p => (t.isFile? p).mapError .files
  return files.map (·.stem)

/-- The containers of a directory under their canonical names, in the order of their
stems. -/
def find (t : FileTree) (directory : FilePath) (pattern : String) :
    Except Fault (List FilePath) := do
  let legacy ← stems t directory pattern legacyExtension
  let canonical ← stems t directory pattern extension
  let all := (legacy ++ canonical).eraseDups.mergeSort fun a b => !(b < a)
  return all.map fun stem => directory.join (stem ++ extension)

/-- Gives a container its canonical name, and tells whether there was anything to
rename. -/
def rename (legacy canonical : FilePath) (overwrite : Bool) : Job Bool := do
  if ← Job.ask (·.exists? legacy) then
    Job.guardOverwrite canonical overwrite
    Job.change (·.move legacy canonical)
    return true
  else return false

/-! ### The index -/

/-- How the entries of a container are read. -/
abbrev Reader := FileTree → FilePath → Except Fault (List Archive.Entry)

/-- Containers are zip archives. -/
def zipReader : Reader := fun t p => do
  let bytes ← (t.readBytes p).mapError .files
  (Archive.entries p.text bytes).mapError .archive

/-- Which containers were read, which were not, and what lies in them. -/
structure Index where
  /-- Where each path lies. -/
  entries : PathTable := .empty
  /-- The containers that were read. -/
  containers : List FilePath := []
  /-- The containers that were not. -/
  failures : List String := []

/-- The record of an entry of a container. -/
def recordOf (container : FilePath) (e : Archive.Entry) : Record :=
  { path := AssetPath.normalize e.path
    bundle := container.name
    payloadOffset := e.dataOffset
    payloadSize := e.payloadSize
    headerOffset := e.headerOffset
    headerSize := e.headerSize }

/-- Numbers as text with blanks between them. -/
def numbersText (numbers : List Int) : Except Fault String :=
  match numbers.mapM Numeral.decimal? with
  | some texts => .ok (" ".intercalate texts)
  | none => .error .longNumber

/-- The index with the entries of one more container. -/
def addEntries (container : FilePath) : List Archive.Entry → PathTable → Attempt PathTable
  | [], table => return table
  | e :: entries, table => do
    let r := recordOf container e
    let numbers ← Attempt.ofExcept
      (numbersText [r.payloadOffset, r.payloadSize, r.headerOffset, r.headerSize])
    Attempt.tell (.detail s!"{r.path} {r.bundle} {numbers}")
    addEntries container entries (table.add r.path r).1

/-- Renames a container if it needs that, and reads its entries. -/
def openContainer (reader : Reader) (overwrite : Bool) (container : FilePath) :
    Job (List Archive.Entry) := do
  let legacy ← Job.path (container.withSuffix legacyExtension)
  if ← rename legacy container overwrite then
    Job.tell (.detail s!"renamed {legacy.name} -> {container.name}")
  Job.ofExcept (reader (← get).files container)

/-- The index with one more container. A fault of files or archives puts it among the
failures; any other stops the job. -/
def addContainer (reader : Reader) (overwrite : Bool) (index : Index) (container : FilePath) :
    Job Index := do
  match ← (openContainer reader overwrite container).outcome with
  | .ok entries =>
    let table ← Job.ofAttempt (addEntries container entries index.entries)
    return { index with entries := table, containers := index.containers ++ [container] }
  | .error fault =>
    if fault.family = .system then
      Job.tell (.error s!"skipping container {container}: {fault.message}")
      return { index with failures := index.failures ++ [container.text] }
    else throw fault

/-- The index of the containers of a directory whose names match a pattern. -/
def index (reader : Reader) (directory : FilePath) (pattern : String) (overwrite : Bool) :
    Job Index := do
  let found ← Job.ofExcept (find (← get).files directory pattern)
  found.foldlM (addContainer reader overwrite) {}

end PackPlan.Containers
