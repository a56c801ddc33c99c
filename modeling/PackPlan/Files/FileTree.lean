import PackPlan.Files.FilePath
import PackPlan.Table
import PackPlan.Text.Utf8

/-!
# File trees

The files and directories below a working directory, as a value. Every operation that
changes something returns the tree as it is afterwards, and one that cannot be done
says why, in the way of a file system.

A tree ends at its working directory: a path with a root leads nowhere, and a step up from the
working directory stays there. Nothing in a tree is a link, so no file stands at two places.

## Main definitions

* `PackPlan.FileTree` — the files and directories
* `FileTree.Errno`, `FileTree.Fault` — why an operation cannot be done
* `FileTree.locate` — where a path leads
* `FileTree.exists?`, `FileTree.isFile?`, `FileTree.isDir?` — what is there
* `FileTree.readBytes`, `FileTree.writeBytes` — the content of a file
* `FileTree.makeDirs`, `FileTree.move`, `FileTree.delete` — other changes
-/

namespace PackPlan

/-- A place in the tree, as the names that lead to it from the working directory. -/
abbrev Location := List String

/-- What can stand at a place, which is never a link. -/
inductive Node
  /-- A directory. -/
  | dir
  /-- A file with its content. -/
  | file (content : Bytes)
  deriving DecidableEq

/-- The files and directories below a working directory. -/
structure FileTree where
  /-- What stands where; neither the working directory itself is listed, nor what is outside. -/
  nodes : Table Location Node := .empty

namespace FileTree

/-- The tree of an empty working directory. -/
def empty : FileTree := {}

instance : Inhabited FileTree := ⟨empty⟩

/-! ### Why an operation cannot be done -/

/-- The reasons that a file system gives. -/
inductive Errno
  | noEntry
  | busy
  | present
  | notDirectory
  | isDirectory
  | invalid
  | nameTooLong
  | notEmpty
  deriving DecidableEq, Repr

/-- The number of a reason. -/
def Errno.number : Errno → Nat
  | .noEntry => 2
  | .busy => 16
  | .present => 17
  | .notDirectory => 20
  | .isDirectory => 21
  | .invalid => 22
  | .nameTooLong => 36
  | .notEmpty => 39

/-- The words for a reason. -/
def Errno.message : Errno → String
  | .noEntry => "No such file or directory"
  | .busy => "Device or resource busy"
  | .present => "File exists"
  | .notDirectory => "Not a directory"
  | .isDirectory => "Is a directory"
  | .invalid => "Invalid argument"
  | .nameTooLong => "File name too long"
  | .notEmpty => "Directory not empty"

/-- Why an operation cannot be done. -/
inductive Fault
  /-- The file system gives a reason, for the paths of the operation. -/
  | system (reason : Errno) (paths : List String)
  /-- A path holds a character that no file name can hold. -/
  | nulCharacter
  deriving DecidableEq, Repr

/-- What is said about an operation that cannot be done. -/
def Fault.message : Fault → String
  | .system reason paths =>
    s!"[Errno {reason.number}] {reason.message}" ++
      (if paths = [] then "" else ": " ++ " -> ".intercalate (paths.map Text.quote))
  | .nulCharacter => "embedded null byte"

/-! ### Places -/

/-- What stands at a place. -/
def node? (t : FileTree) (place : Location) : Option Node :=
  if place = [] then some .dir else t.nodes.get? place

/-- The most bytes of a file name. -/
def maxName : Nat := 255

/-- The most bytes of a path. -/
def maxPath : Nat := 4095

/-- Where names lead from a place. All but the last must lead through directories; what
stands at the end, if anything does, is not asked. -/
def follow (t : FileTree) (place : Location) : List String → Except Errno Location
  | [] => .ok place
  | name :: rest =>
    match t.node? place with
    | none => .error .noEntry
    | some (.file _) => .error .notDirectory
    | some .dir =>
      -- above the working directory there is nothing to be seen, so a step up stays there
      if name = ".." then follow t place.dropLast rest
      else if maxName < name.utf8ByteSize then .error .nameTooLong
      else follow t (place ++ [name]) rest

/-- Where a path leads. A path with a root leads out of the tree. -/
def reach (t : FileTree) (p : FilePath) : Except Errno Location :=
  if p.root ≠ "" then .error .noEntry
  else if maxPath < p.text.utf8ByteSize then .error .nameTooLong
  else t.follow [] (FilePath.namesOf p.text.toList)

/-- Whether a path holds a character that no file name can hold. -/
def hasNul (p : FilePath) : Bool := '\x00' ∈ p.text.toList

/-- Where a path leads, for an operation on the given paths. -/
def locate (t : FileTree) (p : FilePath) (paths : List FilePath := [p]) :
    Except Fault Location :=
  if hasNul p then .error .nulCharacter
  else (t.reach p).mapError (.system · (paths.map (·.text)))

/-! ### What is there -/

/-- What stands where a path leads. A path that leads nowhere leads to nothing, but a
name that is too long is an error. -/
def find? (t : FileTree) (p : FilePath) : Except Fault (Option Node) :=
  if hasNul p then .ok none
  else match t.reach p with
    | .ok place => .ok (t.node? place)
    | .error .nameTooLong => .error (.system .nameTooLong [p.text])
    | .error _ => .ok none

/-- Whether something stands where a path leads. -/
def exists? (t : FileTree) (p : FilePath) : Except Fault Bool := (t.find? p).map (·.isSome)

/-- Whether a file stands where a path leads. -/
def isFile? (t : FileTree) (p : FilePath) : Except Fault Bool :=
  (t.find? p).map fun
    | some (.file _) => true
    | _ => false

/-- Whether a directory stands where a path leads. -/
def isDir? (t : FileTree) (p : FilePath) : Except Fault Bool :=
  (t.find? p).map (· = some .dir)

/-- The names that a directory holds. -/
def names (t : FileTree) (place : Location) : List String :=
  t.nodes.keys.filterMap fun k => if k.dropLast = place then k.getLast? else none

/-- The places of the directories below a place. -/
def directoriesBelow (t : FileTree) (place : Location) : List Location :=
  t.nodes.entries.filterMap fun e =>
    if place.isPrefixOf e.1 ∧ e.2 = .dir then some e.1 else none

/-! ### Content -/

/-- The content of the file to which a path leads. -/
def readBytes (t : FileTree) (p : FilePath) : Except Fault Bytes := do
  let place ← t.locate p
  match t.node? place with
  | some (.file content) => return content
  | some .dir => .error (.system .isDirectory [p.text])
  | none => .error (.system .noEntry [p.text])

/-- The tree with a content for a file, which is made if it is not there. The directory
that is to hold it must be there. -/
def writeBytes (t : FileTree) (p : FilePath) (content : Bytes) : Except Fault FileTree := do
  let place ← t.locate p
  if t.node? place = some .dir then .error (.system .isDirectory [p.text])
  else return { nodes := t.nodes.insert place (.file content) }

/-! ### Directories -/

/-- The tree with one more directory. -/
def makeDir (t : FileTree) (p : FilePath) : Except Fault FileTree := do
  let place ← t.locate p
  match t.node? place with
  | some _ => .error (.system .present [p.text])
  | none => return { nodes := t.nodes.insert place .dir }

/-- The tree with a directory, which may be there already. -/
def makeDirOnce (t : FileTree) (p : FilePath) : Except Fault FileTree :=
  match t.makeDir p with
  | .ok t => .ok t
  | .error (.system reason paths) => do
    -- whatever the reason, a directory that is there will do
    if reason ≠ .noEntry ∧ (← t.isDir? p) then return t else .error (.system reason paths)
  | .error e => .error e

/-- The tree with a directory and those that lead to it. -/
def makeDirs (t : FileTree) (p : FilePath) : Except Fault FileTree :=
  match t.makeDir p with
  | .error (.system .noEntry paths) =>
    if _ : p.parts = [] then .error (.system .noEntry paths)
    else do
      let t ← makeDirs t p.parent
      t.makeDirOnce p
  | _ => t.makeDirOnce p
termination_by p.parts.length
decreasing_by
  have := List.length_pos_iff.2 ‹¬p.parts = []›
  simp only [FilePath.parent, List.length_dropLast]
  omega

/-! ### Moving and deleting -/

/-- The tree with everything at and below one place at another. -/
def relocate (t : FileTree) (source target : Location) : FileTree :=
  let inside := t.nodes.filter fun k _ => source.isPrefixOf k
  let outside := t.nodes.filter fun k _ => !source.isPrefixOf k
  { nodes := inside.entries.foldl (fun nodes e =>
      nodes.insert (target ++ e.1.drop source.length) e.2) outside }

/-- Whether a path ends in a name, and not in a step. -/
def endsInName (p : FilePath) : Bool := p.name ≠ "" && p.name ≠ ".."

/-- Why what stands at one place cannot take another, if it cannot. -/
def moveObstacle? (t : FileTree) (source target : Location) : Option Errno :=
  match t.node? source, t.node? target with
  | none, _ => some .noEntry
  | some node, other =>
    if source = target then none
    else if source.isPrefixOf target then some .invalid
    else if target.isPrefixOf source then some .notEmpty
    else match node, other with
      | .file _, some .dir => some .isDirectory
      | .dir, some (.file _) => some .notDirectory
      | .dir, some .dir => if t.names target = [] then none else some .notEmpty
      | _, _ => none

/-- The tree with what stands at one path moved to another, taking the place of what
stands there. Both paths have to end in a name. -/
def move (t : FileTree) (source target : FilePath) : Except Fault FileTree := do
  let paths := [source, target]
  let old ← t.locate source paths
  let new ← t.locate target paths
  let obstacle :=
    if endsInName source && endsInName target then t.moveObstacle? old new else some .busy
  match obstacle with
  | some reason => .error (.system reason (paths.map (·.text)))
  | none => return if old = new then t else t.relocate old new

/-- The tree without the file to which a path leads. No job takes a file away; this is what may
happen to a tree between two jobs. -/
def delete (t : FileTree) (p : FilePath) : Except Fault FileTree := do
  let place ← t.locate p
  match t.node? place with
  | some (.file _) => return { nodes := t.nodes.erase place }
  | some .dir => .error (.system .isDirectory [p.text])
  | none => .error (.system .noEntry [p.text])

/-- The files of the tree with their contents. -/
def files (t : FileTree) : List (Location × Bytes) :=
  t.nodes.entries.filterMap fun e =>
    match e.2 with
    | .file content => some (e.1, content)
    | .dir => none

end FileTree

end PackPlan
