import PackPlan.Command.Session

/-!
# The command line

The program meets one request on the files below its working directory, which are all
it can reach, and shows what it has to tell. This module only moves files between the
disk and their value; what is done with them is decided elsewhere.

## Main definitions

* `Disk.load` — the files below a directory
* `Disk.save` — what has changed among them
* `main` — the program
-/

namespace PackPlan.Disk

open IO.FS

/-- The text of a place. -/
def placeText (place : Location) : String := "/".intercalate place

/-- The tree with what the given entries of a directory hold. Links are left alone. -/
partial def load (place : Location) (t : FileTree) (entries : List DirEntry) : IO FileTree :=
  entries.foldlM (fun t e => do
    let here := place ++ [e.fileName]
    match (← e.path.symlinkMetadata).type with
    | .dir => load here ⟨t.nodes.insert here .dir⟩ (← e.path.readDir).toList
    | .file => return ⟨t.nodes.insert here (.file (← readBinFile e.path).toList)⟩
    | _ => return t) t

/-- Makes the files and directories of the disk, which are those of one tree, those of
another. -/
def save (before after : FileTree) : IO Unit := do
  -- what a directory holds is listed after it, and has to go before it
  for (place, node) in before.nodes.entries.reverse do
    if !after.nodes.contains place then
      if node = .dir then removeDir (placeText place) else removeFile (placeText place)
  for (place, node) in after.nodes.entries do
    if node = .dir then createDirAll (placeText place)
  for (place, content) in after.files do
    if before.nodes.get? place ≠ some (.file content) then
      writeBinFile (placeText place) ⟨content.toArray⟩

end PackPlan.Disk

open PackPlan in
/-- Meets the request of the arguments. -/
def main (args : List String) : IO UInt32 := do
  let before ← Disk.load [] .empty (← (← IO.currentDir).readDir).toList
  let outcome := Session.call Containers.zipReader args before
  Disk.save before outcome.files
  IO.print outcome.out
  IO.eprint outcome.err
  outcome.ending.message?.forM IO.eprintln
  return outcome.ending.status.toUInt32
