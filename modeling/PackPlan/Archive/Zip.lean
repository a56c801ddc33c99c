import PackPlan.Archive.CodePage

/-!
# Zip directories

A zip archive ends with a directory of its members. The directory is found from the
end record at the very end of the file, behind which only a comment may stand, and it
may be preceded by anything. Archives too large for 32 bits have a wide end record
before the usual one, and wide fields in the extra data of members.

## Main definitions

* `Zip.Damage`, `Zip.Fault` — why bytes are no archive that can be read
* `Zip.EndRecord`, `Zip.findEnd` — the end record
* `Zip.Member`, `Zip.members` — the members, in the order of the directory
-/

namespace PackPlan.Zip

/-! ### Numbers in bytes -/

/-- So many bytes from an offset, or fewer at the end. -/
def slice (bytes : Bytes) (offset count : Nat) : Bytes := (bytes.drop offset).take count

/-- The number that bytes denote, the least significant first. -/
def number (bytes : Bytes) : Nat := bytes.foldr (fun b n => b.toNat + 256 * n) 0

/-- The number in so many bytes from an offset. -/
def field (bytes : Bytes) (offset count : Nat) : Nat := number (slice bytes offset count)

/-- The mark of an end record. -/
def endMark : Bytes := [0x50, 0x4b, 0x05, 0x06]

/-- The mark of a wide end record. -/
def wideEndMark : Bytes := [0x50, 0x4b, 0x06, 0x06]

/-- The mark of the locator of a wide end record. -/
def locatorMark : Bytes := [0x50, 0x4b, 0x06, 0x07]

/-- The mark of an entry of the directory. -/
def entryMark : Bytes := [0x50, 0x4b, 0x01, 0x02]

/-- The length of an end record without its comment. -/
def endLength : Nat := 22

/-- The length of a wide end record. -/
def wideEndLength : Nat := 56

/-- The length of the locator of a wide end record. -/
def locatorLength : Nat := 20

/-- The length of an entry of the directory without its variable parts. -/
def entryLength : Nat := 46

/-! ### Why bytes are no archive -/

/-- What is wrong with an archive. -/
inductive Damage
  | noArchive
  | manyDisks
  | badOffset
  | truncated
  | badMark
  | extra (id size : Nat)
  | wideField (name : String)
  deriving DecidableEq, Repr

/-- The words for what is wrong with an archive. -/
def Damage.message : Damage → String
  | .noArchive => "File is not a zip file"
  | .manyDisks => "zipfiles that span multiple disks are not supported"
  | .badOffset => "Bad offset for central directory"
  | .truncated => "Truncated central directory"
  | .badMark => "Bad magic number for central directory"
  | .extra id size =>
    "Corrupt extra field " ++ String.ofList (Text.hexPadded 4 id) ++ s!" (size={size})"
  | .wideField name => s!"Corrupt zip64 extra field. {name} not found."

/-- Why an archive cannot be read. -/
inductive Fault
  /-- Something is wrong with it. -/
  | damaged (damage : Damage)
  /-- It asks for a later version of the format, in tenths. -/
  | version (tenths : Nat)
  /-- The name of a member is no text. -/
  | name (cause : Utf8.Fault)
  deriving DecidableEq, Repr

/-- The latest version of the format that can be read, in tenths. -/
def maxVersion : Nat := 63

/-! ### The end record -/

/-- What the end of an archive tells. -/
structure EndRecord where
  /-- Where the end record stands. -/
  location : Nat
  /-- How long the directory is. -/
  size : Nat
  /-- Where the directory is said to stand. -/
  offset : Nat
  /-- Whether the numbers are those of a wide end record. -/
  wide : Bool := false

/-- Where bytes last occur in others, `index` being the offset of the front. -/
def lastIndexFrom (mark : Bytes) : (index : Nat) → (found : Option Nat) → Bytes → Option Nat
  | _, found, [] => found
  | index, found, b :: rest =>
    lastIndexFrom mark (index + 1) (if mark.isPrefixOf (b :: rest) then some index else found) rest

/-- Where bytes last occur in others. -/
def lastIndex (mark bytes : Bytes) : Option Nat := lastIndexFrom mark 0 none bytes

/-- Where the end record of an archive stands: at the very end, or where its mark last
occurs in what may be a comment. -/
def endLocation? (bytes : Bytes) : Option Nat :=
  if bytes.length < endLength then none
  else
    -- without a comment the record is the last thing in the file
    let last := bytes.length - endLength
    let tail := bytes.drop last
    if endMark.isPrefixOf tail ∧ field tail 20 2 = 0 then some last
    else
      -- a comment has less than 2 ^ 16 bytes, so the record is not further from the end
      let start := bytes.length - Nat.pow 2 16 - endLength
      match lastIndex endMark (bytes.drop start) with
      | some i => if start + i + endLength ≤ bytes.length then some (start + i) else none
      | none => none

/-- The end record at a location. -/
def endRecordAt (bytes : Bytes) (location : Nat) : EndRecord :=
  { location, size := field bytes (location + 12) 4, offset := field bytes (location + 16) 4 }

/-- The end record with the numbers of the wide end record before it, if there is one. -/
def widen (bytes : Bytes) (record : EndRecord) : Except Damage EndRecord :=
  if record.location < locatorLength then .ok record
  else
    let locator := slice bytes (record.location - locatorLength) locatorLength
    if !locatorMark.isPrefixOf locator then .ok record
    else if field locator 4 4 ≠ 0 ∨ 1 < field locator 16 4 then .error .manyDisks
    else if record.location < locatorLength + wideEndLength then .error .noArchive
    else
      -- the wide record is taken to stand right before its locator, wherever that points
      let wide := slice bytes (record.location - locatorLength - wideEndLength) wideEndLength
      if !wideEndMark.isPrefixOf wide then .ok record
      else .ok { record with size := field wide 40 8, offset := field wide 48 8, wide := true }

/-- The end record of an archive. -/
def findEnd (bytes : Bytes) : Except Damage EndRecord :=
  match endLocation? bytes with
  | some location => widen bytes (endRecordAt bytes location)
  | none => .error .noArchive

/-- Where the directory really stands; negative if it would begin before the file. -/
def EndRecord.start (r : EndRecord) : Int :=
  r.location - r.size - (if r.wide then (wideEndLength + locatorLength : Int) else 0)

/-- How far the archive is from where its own offsets say it is. -/
def EndRecord.shift (r : EndRecord) : Int := r.start - r.offset

/-! ### The directory -/

/-- A member of an archive, as the directory has it. -/
structure Member where
  /-- The name. -/
  name : String
  /-- How many bytes it has in the archive. -/
  storedSize : Nat
  /-- How many bytes it has by itself. -/
  size : Nat
  /-- Where its local header stands. -/
  headerOffset : Int
  deriving DecidableEq, Repr

/-- The greatest number of 32 bits, which stands for one that needs more. -/
def narrowLimit : Nat := 0xffffffff

/-- The greatest number of 64 bits. -/
def wideLimit : Nat := 0xffffffffffffffff

/-- A number of 64 bits taken from the front of data. -/
def takeWide (name : String) (data : Bytes) : Except Damage (Nat × Bytes) :=
  if data.length < 8 then .error (.wideField name) else .ok (field data 0 8, data.drop 8)

/-- The member with the wide numbers of a block of extra data in the place of those
that did not fit. -/
def Member.takeWideFields (m : Member) (data : Bytes) : Except Damage Member := do
  -- only the numbers that did not fit are there, in this order
  let (size, data) ←
    if m.size = wideLimit ∨ m.size = narrowLimit then takeWide "File size" data
    else .ok (m.size, data)
  let (storedSize, data) ←
    if m.storedSize = narrowLimit then takeWide "Compress size" data
    else .ok (m.storedSize, data)
  let (offset, _) ←
    if m.headerOffset = narrowLimit then
      (takeWide "Header offset" data).map fun r => ((r.1 : Int), r.2)
    else .ok (m.headerOffset, data)
  return { m with size, storedSize, headerOffset := offset }

/-- The member with what its extra data tells. Every block must be whole; a rest too
short for a block is passed over. -/
def Member.takeExtra (m : Member) (extra : Bytes) : Except Damage Member :=
  if extra.length < 4 then .ok m
  else
    let id := field extra 0 2
    let size := field extra 2 2
    if extra.length < size + 4 then .error (.extra id size)
    else do
      let m ← if id = 1 then m.takeWideFields (slice extra 4 size) else .ok m
      m.takeExtra (extra.drop (size + 4))
termination_by extra.length
decreasing_by
  simp only [List.length_drop]
  omega

/-- The bit that marks a name as UTF-8. -/
def hasUtf8Name (flags : Nat) : Bool := flags.testBit 11

/-- The name that the bytes of an entry denote; it ends at the first null. -/
def readName (flags : Nat) (bytes : Bytes) : Except Fault String := do
  let s ← if hasUtf8Name flags then (Utf8.decode bytes).mapError .name
    else .ok (CodePage.decode bytes)
  return String.ofList (s.takeWhile (· ≠ '\x00'))

/-- The lengths of the variable parts of an entry: name, extra data and comment. -/
def partLengths (entry : Bytes) : Nat × Nat × Nat :=
  (field entry 28 2, field entry 30 2, field entry 32 2)

/-- The member of an entry, given the bytes from the entry on. -/
def readMember (bytes : Bytes) : Except Fault Member := do
  let (nameLength, extraLength, _) := partLengths bytes
  let name ← readName (field bytes 8 2) (slice bytes entryLength nameLength)
  let version := field bytes 6 1
  if maxVersion < version then .error (.version version)
  else
    let m : Member :=
      { name, storedSize := field bytes 20 4, size := field bytes 24 4
        headerOffset := field bytes 42 4 }
    (m.takeExtra (slice bytes (entryLength + nameLength) extraLength)).mapError .damaged

/-- The members of a directory of which `left` bytes are still to be accounted for. -/
def membersFrom (shift : Int) (left : Nat) (bytes : Bytes) : Except Fault (List Member) :=
  if left = 0 then .ok []
  else if bytes.length < entryLength then .error (.damaged .truncated)
  else if !entryMark.isPrefixOf bytes then .error (.damaged .badMark)
  else do
    let (nameLength, extraLength, commentLength) := partLengths bytes
    let length := entryLength + nameLength + extraLength + commentLength
    let m ← readMember bytes
    -- an entry may claim to be longer than what is left, which ends the directory
    let rest ← membersFrom shift (left - length) (bytes.drop length)
    return { m with headerOffset := m.headerOffset + shift } :: rest
termination_by left
decreasing_by
  have : 0 < entryLength := by decide
  omega

/-- The members of an archive, in the order of its directory. -/
def members (bytes : Bytes) : Except Fault (List Member) :=
  match findEnd bytes with
  | .error damage => .error (.damaged damage)
  | .ok record =>
    if record.start < 0 then .error (.damaged .badOffset)
    else membersFrom record.shift record.size (slice bytes record.start.toNat record.size)

end PackPlan.Zip
