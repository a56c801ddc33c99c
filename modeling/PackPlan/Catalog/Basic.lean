import PackPlan.AssetPath
import PackPlan.Pattern
import PackPlan.Record
import PackPlan.Table

/-!
# Asset catalogs

A catalog knows the assets of one platform: their paths, and the assets on which each
depends. It answers in both directions, by id and by path.

## Main definitions

* `PackPlan.Catalog` — the assets of a platform
* `Catalog.add` — one more asset
* `Catalog.pathOf`, `Catalog.idOf` — from ids to paths and back
* `Catalog.dependencies?`, `Catalog.edges` — what an asset depends on
* `Catalog.matchesPattern` — whether an asset's path has the form of a pattern
-/

namespace PackPlan

/-- The assets of a platform. -/
structure Catalog where
  /-- The path of each asset. -/
  paths : Table AssetId String := .empty
  /-- The asset at each path. -/
  ids : Table String AssetId := .empty
  /-- The assets on which each depends, where there are any. -/
  dependencies : Table AssetId (List AssetId) := .empty
  /-- Assets whose dependencies cannot be looked up. -/
  unreadable : List AssetId := []

namespace Catalog

/-- The catalog of nothing. -/
def empty : Catalog := {}

instance : Inhabited Catalog := ⟨empty⟩

/-- The catalog with one more asset. An asset that is there takes the new path; its
dependencies are replaced only if new ones are given. -/
def add (c : Catalog) (id : AssetId) (path : String) (dependencies : List AssetId) : Catalog :=
  let path := AssetPath.normalize path
  { c with
    paths := c.paths.insert id path
    ids := if path = "" then c.ids else c.ids.insert path id
    dependencies :=
      if dependencies = [] then c.dependencies else c.dependencies.insert id dependencies }

/-- The path of an asset, or the empty text. -/
def pathOf (c : Catalog) (id : AssetId) : String := (c.paths.get? id).getD ""

/-- The asset at a path, or the id of no asset. -/
def idOf (c : Catalog) (path : String) : AssetId :=
  (c.ids.get? (AssetPath.normalize path)).getD .none

/-- The assets on which an asset depends, if any are known. -/
def dependencies? (c : Catalog) (id : AssetId) : Option (List AssetId) := c.dependencies.get? id

/-- The assets on which an asset depends, as far as they can be looked up. -/
def edges (c : Catalog) (id : AssetId) : List AssetId :=
  if id ∈ c.unreadable then [] else (c.dependencies? id).getD []

/-- Whether a path has the form of a pattern, both being taken without regard to case
and to the kind of slash. -/
def pathMatches (path pattern : String) : Bool :=
  Pattern.holds (Text.lower (pattern.toList.map AssetPath.slash))
    (AssetPath.normalizeChars path.toList)

/-- Whether an asset's path has the form of a pattern; an asset without a path has none. -/
def matchesPattern (c : Catalog) (id : AssetId) (pattern : String) : Bool :=
  c.pathOf id ≠ "" && pathMatches (c.pathOf id) pattern

end Catalog

end PackPlan
