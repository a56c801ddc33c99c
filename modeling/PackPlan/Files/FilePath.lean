import PackPlan.Text.Quoted
import PackPlan.Text.Split

/-!
# File paths

A file path is a root and the names below it. Repeated slashes and names that denote
the directory itself are dropped as a path is read; steps up are kept.

## Main definitions

* `PackPlan.FilePath` — a path
* `FilePath.ofString`, `FilePath.text` — paths from text and back
* `FilePath.name`, `FilePath.stem`, `FilePath.suffix`, `FilePath.parent` — parts of a path
* `FilePath.withName`, `FilePath.withSuffix`, `FilePath.withExtension` — changed paths
* `FilePath.join` — a path below a path
-/

namespace PackPlan

/-- A path to a file or directory. -/
structure FilePath where
  /-- No slash, one, or exactly two, with which the path begins. -/
  root : String := ""
  /-- The names from the root down. -/
  parts : List String := []
  deriving DecidableEq, Inhabited, Repr

namespace FilePath

/-- The slashes that make the root of a path. -/
def rootOf (s : List Char) : String :=
  match (s.takeWhile (· = '/')).length with
  | 0 => ""
  | 2 => "//"
  | _ => "/"

/-- The names in a text. -/
def namesOf (s : List Char) : List String :=
  ((Text.splitAt '/' s).filter fun piece => piece ≠ [] ∧ piece ≠ ['.']).map String.ofList

/-- The path that a text denotes. -/
def ofString (s : String) : FilePath := ⟨rootOf s.toList, namesOf s.toList⟩

/-- The text of a path. -/
def text (p : FilePath) : String :=
  if p.root = "" ∧ p.parts = [] then "." else p.root ++ "/".intercalate p.parts

instance : ToString FilePath := ⟨text⟩

/-- A path below a path; one with a root of its own stands by itself. -/
def join (p : FilePath) (s : String) : FilePath :=
  let q := ofString s
  if q.root = "" then { p with parts := p.parts ++ q.parts } else q

/-- The path of the directory that holds a path. -/
def parent (p : FilePath) : FilePath := { p with parts := p.parts.dropLast }

/-- The last name of a path, or nothing. -/
def name (p : FilePath) : String := p.parts.getLastD ""

/-! ### Stem and suffix -/

/-- A name cut before its last dot, unless that is its first or its last character. -/
def cutName (s : List Char) : List Char × List Char :=
  let after := (s.reverse.takeWhile (· ≠ '.')).length
  let dot := s.length - after - 1
  if s.length ≤ after + 1 ∨ after = 0 then (s, []) else (s.take dot, s.drop dot)

/-- The last name without its suffix. -/
def stem (p : FilePath) : String := String.ofList (cutName p.name.toList).1

/-- The suffix of the last name, with its dot. -/
def suffix (p : FilePath) : String := String.ofList (cutName p.name.toList).2

/-- Why a path cannot be changed. -/
inductive Fault
  /-- The path has no last name. -/
  | nameless (path : FilePath)
  /-- The text is no name. -/
  | name (text : String)
  /-- The text is no suffix. -/
  | suffix (text : String)
  deriving DecidableEq, Repr

/-- What is said about a path that cannot be changed. -/
def Fault.message : Fault → String
  | .nameless path => s!"PosixPath({Text.quote path.text}) has an empty name"
  | .name text => s!"Invalid name {Text.quote text}"
  | .suffix text => s!"Invalid suffix {Text.quote text}"

/-- The path with another last name in place of its own. -/
def rename (p : FilePath) (name : String) : FilePath :=
  { p with parts := p.parts.dropLast ++ [name] }

/-- Whether a text can be a last name: one name, with no slash at either end. -/
def isName (s : String) : Bool :=
  let q := ofString s
  q.root = "" && q.parts.length = 1 && s.toList.getLast? ≠ some '/'

/-- The path with another last name. -/
def withName (p : FilePath) (name : String) : Except Fault FilePath :=
  if p.name = "" then .error (.nameless p)
  else if isName name then .ok (p.rename name)
  else .error (.name name)

/-- The path with another suffix. -/
def withSuffix (p : FilePath) (suffix : String) : Except Fault FilePath :=
  if '/' ∈ suffix.toList ∨ (suffix ≠ "" ∧ suffix.toList.head? ≠ some '.') ∨ suffix = "." then
    .error (.suffix suffix)
  else if p.name = "" then .error (.nameless p)
  else .ok (p.rename (p.stem ++ suffix))

/-- The path with an extension in place of its suffix; the dot may be left out. -/
def withExtension (p : FilePath) (extension : String) : Except Fault FilePath :=
  let extension := if extension.toList.head? = some '.' then extension else "." ++ extension
  p.withName (p.stem ++ extension)

end FilePath

end PackPlan
