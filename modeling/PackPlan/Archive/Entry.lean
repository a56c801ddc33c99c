import PackPlan.Archive.Zip

/-!
# Archive entries

Where each member of an archive lies in the file: its local header, which holds its
name and extra data once more, and after the header its bytes.

## Main definitions

* `Archive.Entry` — where a member lies
* `Archive.Fault` — why an archive cannot be listed
* `Archive.entries` — the entries of an archive
-/

namespace PackPlan.Archive

/-- Where a member of an archive lies. -/
structure Entry where
  /-- The member's path. -/
  path : String
  /-- Where the header begins. -/
  headerOffset : Int
  /-- Where the header ends and the data begin. -/
  dataOffset : Int
  /-- Where the data end. -/
  endOffset : Int
  deriving DecidableEq, Repr

/-- How long the header is. -/
def Entry.headerSize (e : Entry) : Int := e.dataOffset - e.headerOffset

/-- How long the data are. -/
def Entry.payloadSize (e : Entry) : Int := e.endOffset - e.dataOffset

/-- Why an archive cannot be listed. -/
inductive Fault
  /-- The file is damaged or no archive. -/
  | damaged (container : String) (damage : Zip.Damage)
  /-- The file ends within the header of a member. -/
  | shortHeader (member container : String)
  /-- There is no header where that of a member should be. -/
  | noHeader (member container : String)
  /-- The archive asks for a later version of the format, in tenths. -/
  | version (tenths : Nat)
  /-- The name of a member is no text. -/
  | name (cause : Utf8.Fault)
  /-- A member has no name. -/
  | nameless
  /-- A header lies where no file can be. -/
  | offset
  /-- The offset of a header is too large for a number of 64 bits. -/
  | hugeOffset
  deriving DecidableEq, Repr

/-- What is said about an archive that cannot be listed. -/
def Fault.message : Fault → String
  | .damaged container damage => s!"failed to open archive file {container}: {damage.message}"
  | .shortHeader member container => s!"truncated local header for ( {member} ) in {container}"
  | .noHeader member container => s!"bad local header signature for ( {member} ) in {container}"
  | .version tenths => s!"zip file version {tenths / 10}.{tenths % 10}"
  | .name cause => cause.message
  | .nameless => "string index out of range"
  | .offset => "[Errno 22] Invalid argument"
  | .hugeOffset => "cannot fit 'int' into an offset-sized integer"

/-- The mark of a local header. -/
def headerMark : Bytes := [0x50, 0x4b, 0x03, 0x04]

/-- The length of a local header without its variable parts. -/
def headerLength : Nat := 30

/-- The greatest offset that a file can have. -/
def maxOffset : Int := 0x100000000000 - 4096

/-- How far an offset of 64 bits reaches on either side. -/
def offsetReach : Int := 0x8000000000000000

/-- The entry of a member, once its local header has been read. -/
def entryOf (container : String) (bytes : Bytes) (m : Zip.Member) : Except Fault Entry :=
  if m.headerOffset < -offsetReach ∨ offsetReach ≤ m.headerOffset then .error .hugeOffset
  else if m.headerOffset < 0 ∨ maxOffset < m.headerOffset then .error .offset
  else
    let header := Zip.slice bytes m.headerOffset.toNat headerLength
    if header.length ≠ headerLength then .error (.shortHeader m.name container)
    else if !headerMark.isPrefixOf header then .error (.noHeader m.name container)
    else
      let dataOffset : Int :=
        m.headerOffset + headerLength + Zip.field header 26 2 + Zip.field header 28 2
      .ok ⟨m.name, m.headerOffset, dataOffset, dataOffset + m.storedSize⟩

/-- The entry of a member, none for a directory. The last character of the name tells
the two apart, so there must be one. -/
def fileEntry (container : String) (bytes : Bytes) (m : Zip.Member) :
    Except Fault (Option Entry) :=
  match m.name.toList.getLast? with
  | none => .error .nameless
  | some '/' => .ok none
  | some _ => some <$> entryOf container bytes m

/-- The fault of an archive whose directory cannot be read. -/
def faultOf (container : String) : Zip.Fault → Fault
  | .damaged damage => .damaged container damage
  | .version tenths => .version tenths
  | .name cause => .name cause

/-- The entries of an archive, directories left out, in the order of its directory. The
first member at fault stops the listing. -/
def entries (container : String) (bytes : Bytes) : Except Fault (List Entry) := do
  let members ← (Zip.members bytes).mapError (faultOf container)
  return (← members.mapM (fileEntry container bytes)).filterMap id

end PackPlan.Archive
