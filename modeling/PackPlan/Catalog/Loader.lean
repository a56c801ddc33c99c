import PackPlan.Catalog.Basic
import PackPlan.Catalog.Rows
import PackPlan.Notice

/-!
# Loading a catalog

A catalog is a table with a column for the id, one for the path and one for the ids on
which the asset depends. Rows without a usable id and dependencies that are misspelled
are passed over with a warning.

## Main definitions

* `Catalog.columns` — the columns that a catalog needs
* `Catalog.Listing` — what a row says of an asset
* `Catalog.listing` — what a row says, and the warnings it gives rise to
* `Catalog.load` — the catalog of a file
-/

namespace PackPlan.Catalog

open Rows (Row)

/-- The columns that a catalog needs, in alphabetical order. -/
def columns : List String := ["asset_id", "dependencies", "relative_path"]

/-- The columns that a header lacks. -/
def missingColumns (header : Row) : List String := columns.filter (· ∉ header)

/-- The field of a row in a column; of columns with one name the last counts. A row
may be shorter than its header. -/
def fieldOf (header row : Row) (column : String) : String :=
  let after := (header.reverse.takeWhile (· ≠ column)).length
  if header.length ≤ after then "" else row.getD (header.length - after - 1) ""

/-- What a row says of an asset. -/
structure Listing where
  /-- The id. -/
  id : AssetId
  /-- The path. -/
  path : String
  /-- The ids on which the asset depends. -/
  dependencies : List AssetId
  deriving DecidableEq

/-- The ids in a list, and a warning for each that is misspelled. -/
def readDependencies (place : String) : List (List Char) → List AssetId × List Notice
  | [] => ([], [])
  | token :: tokens =>
    let (ids, notices) := readDependencies place tokens
    if Text.trim token = [] then (ids, notices)
    else match AssetId.read (String.ofList token) with
      | .error cause =>
        (ids, .warning s!"{place}: skipping dependency, {cause.message}" :: notices)
      | .ok id => (if id.isValid then id :: ids else ids, notices)

/-- What a row says of an asset, if it has a usable id, and the warnings it gives rise
to. -/
def listing (place : String) (header row : Row) : Option Listing × List Notice :=
  match AssetId.read (fieldOf header row "asset_id") with
  | .error cause => (none, [.warning s!"{place}: skipping row, {cause.message}"])
  | .ok id =>
    if !id.isValid then (none, [.warning s!"{place}: skipping row without an asset id"])
    else
      let (dependencies, notices) :=
        readDependencies place (Text.splitAt ',' (fieldOf header row "dependencies").toList)
      (some ⟨id, fieldOf header row "relative_path", dependencies⟩, notices)

/-- The catalog with what rows say, and the warnings they give rise to. `line` is the
line on which the first of them is taken to stand. -/
def addRows (path : String) (header : Row) : (line : Nat) → List Row → Catalog →
    Catalog × List Notice
  | _, [], c => (c, [])
  | line, row :: rows, c =>
    let (found, notices) := listing s!"{path}:{line}" header row
    let c := match found with
      | some l => c.add l.id l.path l.dependencies
      | none => c
    let (c, more) := addRows path header (line + 1) rows c
    (c, notices ++ more)

/-- The catalog of a file with a given content. Blank lines do not count. -/
def load (path : String) (bytes : Bytes) : Attempt Catalog :=
  match Rows.ofBytes bytes with
  | ([], some fault) => throw fault
  | ([], none) => throw (.columns path columns)
  | (header :: rows, fault) =>
    let missing := missingColumns header
    if missing ≠ [] then throw (.columns path missing)
    else do
      -- what was told of the rows before a fault stays told
      let (c, notices) := addRows path header 2 (rows.filter (· ≠ [])) .empty
      notices.forM Attempt.tell
      match fault with
      | some fault => throw fault
      | none => return c

end PackPlan.Catalog
