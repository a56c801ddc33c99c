import PackPlan.Text.Blank
import PackPlan.Text.Casing
import PackPlan.Text.Split

/-!
# Asset paths

The path of an asset has one normal form: lower case, forward slashes, no root, and
no component that could be left out. Paths are normalised by spelling alone; no file
is looked at.

## Main definitions

* `AssetPath.components` — the components that a spelling of a path comes down to
* `AssetPath.normalizeChars`, `AssetPath.normalize` — the normal form of a path
-/

namespace PackPlan.AssetPath

/-- The component that names the directory itself. -/
def here : List Char := ['.']

/-- The component that names the directory above. -/
def above : List Char := ['.', '.']

/-- One more component below those already taken, the latest first. A step up undoes
the latest component; with nothing to undo it is kept, but lost at a root. -/
def descend (rooted : Bool) (taken : List (List Char)) (component : List Char) :
    List (List Char) :=
  if component = [] ∨ component = here then taken
  else if component = above then
    match taken with
    | [] => if rooted then [] else [above]
    | top :: below => if top = above then above :: top :: below else below
  else component :: taken

/-- The components that a spelling of a path comes down to. -/
def components (s : List Char) : List (List Char) :=
  ((Text.splitAt '/' s).foldl (descend (s.head? = some '/')) []).reverse

/-- Backslashes separate components as slashes do. -/
def slash (c : Char) : Char := if c = '\\' then '/' else c

/-- The text without one leading slash. -/
def dropRoot : List Char → List Char
  | '/' :: s => s
  | s => s

/-- The normal form of a path, character by character. -/
def normalizeChars (s : List Char) : List Char :=
  Text.join ['/'] (components (dropRoot (Text.lower ((Text.trim s).map slash))))

/-- The normal form of a path. -/
def normalize (path : String) : String := String.ofList (normalizeChars path.toList)

end PackPlan.AssetPath
