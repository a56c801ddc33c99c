import PackPlan.Files.FileTree
import PackPlan.Pattern

/-!
# Searching for files

Files are searched by a path of patterns, one for each level of directories; two stars
alone stand for any number of levels.

## Main definitions

* `Search.Level` — what one level of a path has to match
* `Search.levels` — the levels of a pattern
* `Search.select` — the paths that match
-/

namespace PackPlan.Search

/-- What one level of a path has to match. -/
inductive Level
  /-- Any number of directories. -/
  | anyDepth
  /-- One name. -/
  | name (s : String)
  /-- A pattern for names. -/
  | pattern (s : List Char)

/-- Why a text is no path of patterns. -/
inductive Fault
  /-- The pattern has a root. -/
  | rooted
  /-- Two stars stand beside other characters. -/
  | depth
  deriving DecidableEq, Repr

/-- What is said about a text that is no path of patterns. -/
def Fault.message : Fault → String
  | .rooted => "Non-relative patterns are unsupported"
  | .depth => "Invalid pattern: '**' can only be an entire path component"

/-- Whether two stars stand next to each other. -/
def hasDoubleStar : List Char → Bool
  | '*' :: '*' :: _ => true
  | _ :: s => hasDoubleStar s
  | [] => false

/-- The level that a name denotes. -/
def levelOf (s : String) : Except Fault Level :=
  let cs := s.toList
  if s = "**" then .ok .anyDepth
  else if hasDoubleStar cs then .error .depth
  else if cs.any fun c => c = '*' || c = '?' || c = '[' then .ok (.pattern cs)
  else .ok (.name s)

/-- The levels of a pattern. -/
def levels (pattern : String) : Except Fault (List Level) :=
  let p := FilePath.ofString pattern
  if p.root ≠ "" then .error .rooted else p.parts.mapM levelOf

/-- The path one level below a path. -/
def below (p : FilePath) (name : String) : FilePath := { p with parts := p.parts ++ [name] }

/-- The paths of the directories at and below a path. -/
def directories (t : FileTree) (p : FilePath) : List FilePath :=
  match t.reach p with
  | .error _ => []
  | .ok place =>
    p :: ((t.directoriesBelow place).filter (· ≠ place)).map fun d =>
      { p with parts := p.parts ++ d.drop place.length }

/-- The names in the directory at a path. -/
def namesIn (t : FileTree) (p : FilePath) : List String :=
  match t.reach p with
  | .error _ => []
  | .ok place => t.names place

/-- The paths below a directory that match levels. What is matched by any level but the
last is a directory. -/
def select (t : FileTree) : List Level → FilePath → Except FileTree.Fault (List FilePath)
  | [], p => .ok [p]
  | level :: rest, p => do
    match level with
    | .anyDepth => return (← (directories t p).mapM (select t rest)).flatten
    | .name s =>
      let q := below p s
      if ← (if rest.isEmpty then t.exists? q else t.isDir? q) then select t rest q else return []
    | .pattern s =>
      let found := (namesIn t p).filter fun n => Pattern.holds s n.toList
      let found ← (found.map (below p)).filterM fun q =>
        if rest.isEmpty then return true else t.isDir? q
      return (← found.mapM (select t rest)).flatten

end PackPlan.Search
