import PackPlan.Record
import PackPlan.Table

/-!
# Records by path

Records kept under their paths. The first record of a path stays; later ones change
nothing.

## Main definitions

* `PackPlan.PathTable` — records by path
* `PathTable.add` — one more record
* `PathTable.gather` — the records of several sources
-/

namespace PackPlan

/-- Records by path. -/
abbrev PathTable := Table String Record

namespace PathTable

/-- The table with a record under a path, and whether the path was taken already. -/
def add (t : PathTable) (path : String) (r : Record) : PathTable × Bool :=
  (t.insertNew path r, t.contains path)

/-- The records of several sources by path; the first of a path stays. -/
def gather (sources : List (List Record)) : PathTable :=
  sources.flatten.foldl (fun t r => (t.add r.path r).1) Table.empty

end PathTable

end PackPlan
