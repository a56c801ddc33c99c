import PackPlan.Files.FilePath
import PackPlan.Text.Blank
import PackPlan.Text.Casing

/-!
# Platforms

Assets are built for several platforms. Files that belong to one platform carry its
name at the end of their stem, after an underscore.

## Main definitions

* `Platform.known` — the names of the platforms
* `Platform.readList` — the platforms that a user names
* `Platform.identifier` — the platform to which a file belongs
* `Platform.mark?` — the file of a platform
-/

namespace PackPlan.Platform

/-- The names of the platforms. -/
def known : List String :=
  ["pc", "linux", "mac", "android", "ios", "provo", "salem", "jasper", "server"]

/-- The names in a list separated by commas, trimmed and in lower case. -/
def namesIn (value : String) : List String :=
  ((Text.splitAt ',' value.toList).map fun piece =>
    String.ofList (Text.lower (Text.trim piece))).filter (· ≠ "")

/-- The platforms in a list of names, each once, or the first name that is none. -/
def ofNames : List String → List String → Except String (List String)
  | taken, [] => .ok taken
  | taken, name :: names =>
    if name ∈ known then ofNames (if name ∈ taken then taken else taken ++ [name]) names
    else .error name

/-- The platforms that a user names, or the first name that is none. -/
def readList (values : List String) : Except String (List String) :=
  ofNames [] (values.flatMap namesIn)

/-- Whether a stem ends in a platform's name, in any case, after an underscore. -/
def endsIn (stem platform : String) : Bool :=
  ('_' :: platform.toList).isSuffixOf (Text.lower stem.toList)

/-- The platform to which a file belongs, if it belongs to one. -/
def identifier? (p : FilePath) : Option String := known.find? (endsIn p.stem)

/-- The path of the file of a platform. There is none if the file belongs to another. -/
def mark? (p : FilePath) (platform : String) : Except FilePath.Fault (Option FilePath) :=
  match identifier? p with
  | some other => .ok (if other = platform then some p else none)
  | none => (p.withName (p.stem ++ "_" ++ platform ++ p.suffix)).map some

end PackPlan.Platform
