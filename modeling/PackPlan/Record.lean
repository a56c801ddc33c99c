import PackPlan.AssetId

/-!
# Asset records

What is known of one asset: its identity and its path, either of which may be
missing, the pack it is assigned to, and where a container holds it.

## Main definitions

* `PackPlan.unassigned` — the pack of an asset that has none
* `PackPlan.Record` — what is known of an asset
* `Record.before` — the order of records in a group
-/

namespace PackPlan

/-- The pack of an asset that is assigned to none. -/
def unassigned : Int := 0xffffffff

/-- What is known of one asset. -/
structure Record where
  /-- The identity, or the id of no asset. -/
  id : AssetId := .none
  /-- The path, or the empty text. -/
  path : String := ""
  /-- The pack. -/
  pack : Int := unassigned
  /-- The container that holds the asset. -/
  bundle : String := ""
  /-- Where the asset's bytes begin in the container. -/
  payloadOffset : Int := 0
  /-- How many bytes the asset has there. -/
  payloadSize : Int := 0
  /-- Where the asset's header begins in the container. -/
  headerOffset : Int := 0
  /-- How many bytes its header has. -/
  headerSize : Int := 0
  deriving DecidableEq, Inhabited

namespace Record

/-- Whether the record has an identity. -/
def hasIdentity (r : Record) : Bool := r.id.isValid

/-- Two records agree when they have the same id, path and pack. It is for those who compare
results; a store asks for the id or for the path only. -/
def agrees (r s : Record) : Bool := r.id = s.id && r.path = s.path && r.pack = s.pack

/-- Records are in order by path, and by the text of the id under one path. -/
def before (r s : Record) : Bool := r.path < s.path || (r.path = s.path && r.id.text < s.id.text)

/-- The order of `before`, with equal records in either order. -/
def le (r s : Record) : Bool := !s.before r

/-- Records in ascending order; records that compare alike keep their order. -/
def sort (records : List Record) : List Record := records.mergeSort le

/-- The pack of the record, or a smaller one. -/
def lowerPack (pack : Int) (r : Record) : Record := { r with pack := min r.pack pack }

end Record

end PackPlan
