import PackPlan.Grouping
import PackPlan.Notice
import PackPlan.PathTable

/-!
# Access logs

A log lists in which order assets are read: pack by pack, with a separator between
packs and a marker after pack zero. A profiling log gives the place of each asset in a
container; a sampling log only names it.

## Main definitions

* `Log.Item` — a record, a separator or the marker
* `Log.renderGroups` — the items of groups of records
* `Log.profiling`, `Log.sampling` — the items of either log
* `Log.promote` — records for the headers of entries that no asset accounts for
* `Log.mergeHeaders` — those records among the others
-/

namespace PackPlan.Log

/-- What a log consists of. -/
inductive Item
  /-- The line of a record. -/
  | record (line : String)
  /-- The line between two packs. -/
  | separator
  /-- The line after the separator that closes pack zero. -/
  | marker
  deriving DecidableEq, Repr

/-- The text of an item, with its line end. -/
def Item.text : Item → String
  | .record line => line ++ "\n"
  | .separator => "----------\n"
  | .marker => "||||||||||  1000\n"

/-- Whether an item is that of a record. -/
def Item.isRecord : Item → Bool
  | .record _ => true
  | _ => false

/-- How many records a log has. -/
def count (items : List Item) : Nat := items.countP (·.isRecord)

/-- The text of a log. -/
def text (items : List Item) : String := String.join (items.map (·.text))

/-- The line of a bundle and a range of its bytes. -/
def line (bundle : String) (offset size : Int) : Except Fault String :=
  match Numeral.decimal? offset, Numeral.decimal? size with
  | some offset, some size =>
    .ok s!"{bundle}\t{offset}\t{size}\ti-read \t000000000000000000"
  | _, _ => .error .longNumber

/-! ### Groups -/

/-- The items of the records of a pack, those without a place being left out. -/
def renderGroup (place : Record → Attempt (Option Record)) : List Record → Attempt (List Item)
  | [] => return []
  | r :: rs => do
    match ← place r with
    | none => renderGroup place rs
    | some placed =>
      let line ← Attempt.ofExcept (line placed.bundle placed.payloadOffset placed.payloadSize)
      let items ← renderGroup place rs
      return .record line :: items

/-- The items of groups in the order given, with a separator between neighbours. -/
def renderEntries (place : Record → Attempt (Option Record)) :
    List (Int × List Record) → Attempt (List Item)
  | [] => return []
  | [(_, group)] => renderGroup place group
  | (pack, group) :: groups => do
    let items ← renderGroup place group
    let rest ← renderEntries place groups
    return items ++ .separator :: (if pack = 0 then .marker :: rest else rest)

/-- The items of groups of records, the packs in ascending order. -/
def renderGroups (place : Record → Attempt (Option Record)) (groups : Groups) :
    Attempt (List Item) :=
  renderEntries place groups.ascending.entries

/-! ### Profiling logs -/

/-- The place that an index has for a record; where it has none, a warning says so. -/
def placeIn (index : PathTable) (r : Record) : Attempt (Option Record) := do
  match index.get? r.path with
  | none =>
    let name := if r.path = "" then r.id.text else r.path
    Attempt.tell (.warning s!"can't find {name} in any indexed container")
    return none
  | some placed =>
    match Numeral.decimal? placed.payloadOffset, Numeral.decimal? placed.payloadSize with
    | some offset, some size =>
      Attempt.tell (.detail s!"{placed.bundle} {offset} {size}")
      return some placed
    | _, _ => throw .longNumber

/-- The items of the profiling log of groups of records. -/
def profiling (index : PathTable) (groups : Groups) : Attempt (List Item) :=
  renderGroups (placeIn index) groups

/-- The items of a profiling log that is to be written; it must not be empty. -/
def nonemptyProfiling (index : PathTable) (groups : Groups) : Attempt (List Item) :=
  if groups.entries.isEmpty || index.entries.isEmpty then throw .emptyLog
  else profiling index groups

/-! ### Sampling logs -/

/-- The name of a record in a sampling log: its bundle, its path, or its id. -/
def sampleName (r : Record) : String :=
  if r.bundle ≠ "" then r.bundle else if r.path ≠ "" then r.path else r.id.text

/-- The items of the sampling log of groups of records. -/
def sampling (groups : Groups) : Attempt (List Item) :=
  renderGroups (fun r => return some { r with bundle := sampleName r }) groups

/-! ### Headers -/

/-- The pack of header records. -/
def headerPack : Int := 0

/-- The record for the header of an entry. -/
def headerRecord (entry : Record) : Record :=
  { path := s!"{entry.path}_{entry.bundle}"
    pack := headerPack
    bundle := entry.bundle
    payloadOffset := entry.headerOffset
    payloadSize := entry.headerSize
    headerOffset := entry.headerOffset
    headerSize := entry.headerSize }

/-- Header records for entries of an index that no asset accounts for, put into the
index as well; one whose path is taken is dropped. -/
def promoteEntries (isKnown : String → Bool) : List Record → PathTable → PathTable × List Record
  | [], index => (index, [])
  | entry :: entries, index =>
    if isKnown entry.path then promoteEntries isKnown entries index
    else
      let r := headerRecord entry
      let (grown, taken) := index.add r.path r
      let (index, promoted) := promoteEntries isKnown entries grown
      (index, if taken then promoted else r :: promoted)

/-- The index with header records for its entries that no asset accounts for, and these
records in the order of the entries. -/
def promote (isKnown : String → Bool) (index : PathTable) : PathTable × List Record :=
  promoteEntries isKnown index.values index

/-- The groups with header records at the end of their pack, the packs in ascending
order. -/
def mergeHeaders (groups : Groups) (promoted : List Record) : Groups :=
  ((Record.sort promoted).foldl (fun groups r => groups.push headerPack r) groups).ascending

end PackPlan.Log
