import PackPlan.Text.Quoted

/-!
# UTF-8

Text as bytes and back. Reading is strict: a byte sequence that is not the shortest
form of a Unicode scalar value is refused, and the refusal says where and why.

## Main definitions

* `Utf8.encode` — the bytes of a text
* `Utf8.Fault` — why bytes are no text
* `Utf8.Reading` — what a run over bytes found, whole or unfinished
* `Utf8.read` — the text at the front of bytes, up to what is wrong or unfinished
* `Utf8.decode` — the text of bytes
-/

namespace PackPlan

/-- The content of a file. -/
abbrev Bytes := List UInt8

namespace Utf8

/-! ### Writing -/

/-- The bytes of a character. -/
def encodeChar (c : Char) : Bytes :=
  let n := c.toNat
  let tail := fun k => (0x80 + n / Nat.pow 64 k % 64).toUInt8
  if n < 0x80 then [n.toUInt8]
  else if n < 0x800 then [(0xc0 + n / 64).toUInt8, tail 0]
  else if n < 0x10000 then [(0xe0 + n / 4096).toUInt8, tail 1, tail 0]
  else [(0xf0 + n / 262144).toUInt8, tail 2, tail 1, tail 0]

/-- The bytes of a text. -/
def encode (s : List Char) : Bytes := s.flatMap encodeChar

/-- The bytes of a string. -/
def ofString (s : String) : Bytes := encode s.toList

/-! ### Reading -/

/-- What is wrong with a sequence of bytes. -/
inductive Cause
  /-- No character begins with this byte. -/
  | start
  /-- The byte after these does not go on with their character. -/
  | continuation
  /-- The bytes end within a character. -/
  | ending
  deriving DecidableEq, Repr

/-- Why bytes are no text. -/
structure Fault where
  /-- Where the sequence in question begins. -/
  offset : Nat
  /-- How many bytes it has. -/
  width : Nat
  /-- Its first byte. -/
  byte : UInt8
  /-- What is wrong with it. -/
  cause : Cause
  deriving DecidableEq, Repr

/-- The words for a cause. -/
def Cause.message : Cause → String
  | .start => "invalid start byte"
  | .continuation => "invalid continuation byte"
  | .ending => "unexpected end of data"

/-- What is said about bytes that are no text. -/
def Fault.message (f : Fault) : String :=
  if f.width = 1 then
    s!"'utf-8' codec can't decode byte 0x" ++ String.ofList (Text.hexPadded 2 f.byte.toNat) ++
      s!" in position {f.offset}: " ++ f.cause.message
  else
    s!"'utf-8' codec can't decode bytes in position {f.offset}-{f.offset + f.width - 1}: " ++
      f.cause.message

/-- What stands at the front of bytes. -/
inductive Front
  /-- A character of so many bytes. -/
  | char (c : Char) (width : Nat)
  /-- So many bytes that belong to no character. -/
  | wrong (width : Nat) (cause : Cause)
  /-- The beginning of a character. -/
  | unfinished

/-- Whether a byte goes on with a character, to which it contributes six bits. -/
def isContinuation (b : UInt8) : Bool := 0x80 ≤ b && b < 0xc0

/-- The second bytes that a lead byte admits: those that make neither an overlong
form nor a surrogate nor a value beyond the last code point. -/
def admitsSecond (lead second : UInt8) : Bool :=
  isContinuation second &&
    !(lead = 0xe0 && second < 0xa0) && !(lead = 0xed && 0xa0 ≤ second) &&
    !(lead = 0xf0 && second < 0x90) && !(lead = 0xf4 && 0x90 ≤ second)

/-- The number of bytes of a character, told by its first; zero for a byte that
begins no character. -/
def widthOf (lead : UInt8) : Nat :=
  if lead < 0x80 then 1
  else if lead < 0xc2 then 0
  else if lead < 0xe0 then 2
  else if lead < 0xf0 then 3
  else if lead < 0xf5 then 4
  else 0

/-- The bits that a first byte contributes to a character of so many bytes. -/
def leadBits (width : Nat) (lead : UInt8) : Nat :=
  match width with
  | 2 => lead.toNat - 0xc0
  | 3 => lead.toNat - 0xe0
  | 4 => lead.toNat - 0xf0
  | _ => lead.toNat

/-- The character that a first byte begins, `wanted` more bytes being needed, with the
bits and the width so far. -/
def frontAfter (bits width : Nat) : (wanted : Nat) → Bytes → Front
  | 0, _ => .char (Char.ofNat bits) width
  | _ + 1, [] => .unfinished
  | wanted + 1, b :: rest =>
    if isContinuation b then frontAfter (bits * 64 + (b.toNat - 0x80)) (width + 1) wanted rest
    else .wrong width .continuation

/-- What stands at the front of bytes, given the first and the rest. -/
def front (lead : UInt8) (rest : Bytes) : Front :=
  match widthOf lead, rest with
  | 0, _ => .wrong 1 .start
  | width + 2, second :: _ =>
    if admitsSecond lead second then frontAfter (leadBits (width + 2) lead) 1 (width + 1) rest
    else .wrong 1 .continuation
  | width + 1, rest => frontAfter (leadBits (width + 1) lead) 1 width rest

/-- What a run over bytes found. -/
structure Reading where
  /-- The text read. -/
  text : List Char
  /-- The bytes of a character that is not finished. -/
  unfinished : Bytes := []
  /-- What stopped the run, if something is wrong. -/
  fault : Option Fault := none

/-- A run over bytes from an offset, with the text so far in reverse, the first `skip`
bytes being part of a character that has been read. -/
def readFrom : (skip : Nat) → (offset : Nat) → (done : List Char) → Bytes → Reading
  | _, _, done, [] => { text := done.reverse }
  | skip + 1, offset, done, _ :: rest => readFrom skip (offset + 1) done rest
  | 0, offset, done, lead :: rest =>
    match front lead rest with
    | .char c width => readFrom (width - 1) (offset + 1) (c :: done) rest
    | .wrong width cause =>
      { text := done.reverse, fault := some ⟨offset, width, lead, cause⟩ }
    | .unfinished => { text := done.reverse, unfinished := lead :: rest }

/-- The text at the front of bytes, up to what is wrong or unfinished. -/
def read (bytes : Bytes) : Reading := readFrom 0 0 [] bytes

/-- What is wrong with bytes that end within a character, after `total` bytes in all. -/
def endingFault? (total : Nat) : Bytes → Option Fault
  | [] => none
  | lead :: rest => some ⟨total - (rest.length + 1), rest.length + 1, lead, .ending⟩

/-- The text of bytes. -/
def decode (bytes : Bytes) : Except Fault (List Char) :=
  let reading := read bytes
  match reading.fault, endingFault? bytes.length reading.unfinished with
  | some fault, _ => .error fault
  | none, some fault => .error fault
  | none, none => .ok reading.text

end Utf8

end PackPlan
