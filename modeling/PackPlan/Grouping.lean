import PackPlan.Record
import PackPlan.Table

/-!
# Pack groups

Records sorted out by pack, the packs in ascending order and the records of each in
the order of records.

## Main definitions

* `PackPlan.Groups` — the records of each pack
* `Groups.ofRecords` — records sorted out by pack
-/

namespace PackPlan

/-- The records of each pack. -/
abbrev Groups := Table Int (List Record)

namespace Groups

/-- The groups with their packs in ascending order. -/
def ascending (groups : Groups) : Groups := groups.sortKeys (· ≤ ·)

/-- Records by pack, each group in the order of the list. -/
def collect (records : List Record) : Groups :=
  records.foldl (fun groups r => groups.push r.pack r) .empty

/-- Records sorted out by pack. Those without a pack are left out unless they are
asked for. -/
def ofRecords (records : List Record) (withUnassigned : Bool := false) : Groups :=
  (collect (records.filter fun r => withUnassigned || r.pack ≠ unassigned)).ascending.map
    fun _ group => Record.sort group

end Groups

end PackPlan
