import PackPlan.Proofs.Archive.Bytes
import PackPlan.Proofs.Text.Ascii

/-!
# The layout of an archive

An archive in the plain layout has its members one after the other, each with a local header
before its data, then the directory, and at the end the end record. Its directory may have the
members in another order, and with other extra data. There are no wide numbers and no comments.

## Main definitions

* `Archive.Part` — a member as it is put into an archive
* `Archive.placements` — where the members stand
* `Archive.Layout` — an archive in the plain layout
* `Archive.Part.entryAt` — where a member lies

## Main results

* `Archive.split_of_mem_placements`, `Archive.pairwise_placements` — members stand where they are
  said to stand, and do not overlap
* `Archive.Part.entryOf_member` — what is read from a local header
* `Archive.Part.readMember_entry` — what is read from an entry of the directory
-/

namespace PackPlan

open Zip (writeFields)

namespace Archive

/-! ### Members -/

/-- A block of extra data that does not hold wide numbers. -/
structure Block where
  /-- What the block is about. -/
  id : Nat
  /-- What it says of that. -/
  data : Bytes
  id_lt : id < Nat.pow 256 2
  id_ne : id ≠ 1
  length_lt : data.length < Nat.pow 256 2

/-- The bytes of a block. -/
def Block.bytes (b : Block) : Bytes := writeFields [2, 2] [b.id, b.data.length] ++ b.data

/-- What both headers say of a member that does not matter for where it is. -/
structure Stamp where
  /-- The version that the member asks for, in tenths. -/
  version : Nat := 20
  /-- What had to be taken care of. -/
  flags : Nat := 0
  /-- How the data are stored. -/
  method : Nat := 0
  /-- The time of the last change. -/
  time : Nat := 0
  /-- The date of the last change. -/
  date : Nat := 0
  /-- The check sum. -/
  sum : Nat := 0

/-- A member as it is put into an archive. -/
structure Part where
  /-- The name, which is printable ASCII and not that of a directory. -/
  name : List Char
  /-- The bytes in the archive. -/
  data : Bytes
  /-- How many bytes these stand for. -/
  size : Nat := 0
  /-- Extra data in the local header. -/
  localExtra : Bytes := []
  /-- Extra data in the directory. -/
  extra : List Block := []
  /-- What the local header says besides. -/
  localStamp : Stamp := {}
  /-- What the directory says besides. -/
  stamp : Stamp := {}
  /-- What the directory says of the program that made the archive. -/
  maker : Nat := 0
  /-- What the directory says of the file that the member was. -/
  attributes : Nat := 0
  printable : ∀ c ∈ name, 0x20 ≤ c.toNat ∧ c.toNat < 0x7f
  not_directory : name.getLast? ≠ some '/'
  version_le : stamp.version ≤ Zip.maxVersion
  name_lt : name.length < Nat.pow 256 2
  localExtra_lt : localExtra.length < Nat.pow 256 2
  extra_lt : (extra.flatMap Block.bytes).length < Nat.pow 256 2

/-- How many bytes the numbers of a local header take. -/
def headerWidths : List Nat := [2, 2, 2, 2, 2, 4, 4, 4, 2, 2]

/-- How many bytes the numbers of an entry of the directory take. The version has a byte of its
own. -/
def entryWidths : List Nat := [2, 1, 1, 2, 2, 2, 2, 4, 4, 4, 2, 2, 2, 2, 2, 4, 4]

/-- How many bytes the numbers of an end record take. -/
def endWidths : List Nat := [2, 2, 2, 2, 4, 4, 2]

namespace Part

/-- The numbers of the local header. -/
def headerNumbers (m : Part) : List Nat :=
  [m.localStamp.version, m.localStamp.flags, m.localStamp.method, m.localStamp.time,
    m.localStamp.date, m.localStamp.sum, m.data.length, m.size, m.name.length,
    m.localExtra.length]

/-- The local header, with name and extra data. -/
def header (m : Part) : Bytes :=
  headerMark ++ (writeFields headerWidths m.headerNumbers ++ (Utf8.encode m.name ++ m.localExtra))

/-- The local header and the data. -/
def bytes (m : Part) : Bytes := m.header ++ m.data

/-- The numbers of the entry of the directory. -/
def entryNumbers (m : Part) (offset : Nat) : List Nat :=
  [m.maker, m.stamp.version, 0, m.stamp.flags, m.stamp.method, m.stamp.time, m.stamp.date,
    m.stamp.sum, m.data.length, m.size, m.name.length, (m.extra.flatMap Block.bytes).length, 0, 0,
    0, m.attributes, offset]

/-- The entry of the directory. -/
def entry (m : Part) (offset : Nat) : Bytes :=
  Zip.entryMark ++ (writeFields entryWidths (m.entryNumbers offset) ++
    (Utf8.encode m.name ++ m.extra.flatMap Block.bytes))

end Part

/-- Where members stand, the first at an offset. -/
def placements : (offset : Nat) → List Part → List (Nat × Part)
  | _, [] => []
  | offset, m :: ms => (offset, m) :: placements (offset + m.bytes.length) ms

/-- The bytes of members, one after the other. -/
def bodyOf (parts : List Part) : Bytes := parts.flatMap Part.bytes

/-- The bytes of a directory. -/
def directoryOf (directory : List (Nat × Part)) : Bytes :=
  directory.flatMap fun p => p.2.entry p.1

/-- An archive in the plain layout. -/
structure Layout where
  /-- The members, in the order in which they stand. -/
  parts : List Part
  /-- The members and where they stand, in the order of the directory. -/
  directory : List (Nat × Part)
  perm : directory.Perm (placements 0 parts)
  /-- The directory begins where 32 bits can tell. -/
  start_lt : (bodyOf parts).length < Nat.pow 256 4
  /-- It is not longer than 32 bits can tell. -/
  length_lt : (directoryOf directory).length < Nat.pow 256 4
  /-- Nothing before the end record looks like the locator of a wide end record. -/
  no_locator : Zip.locatorLength ≤ (bodyOf parts ++ directoryOf directory).length →
    Zip.locatorMark.isPrefixOf ((bodyOf parts ++ directoryOf directory).drop
      ((bodyOf parts ++ directoryOf directory).length - Zip.locatorLength)) = false

namespace Layout

/-- What stands before the end record: the members, and the directory. -/
def front (a : Layout) : Bytes := bodyOf a.parts ++ directoryOf a.directory

/-- The numbers of the end record. There is no comment. -/
def endNumbers (a : Layout) : List Nat :=
  [0, 0, a.directory.length, a.directory.length, (directoryOf a.directory).length,
    (bodyOf a.parts).length, 0]

/-- The end record. -/
def endRecord (a : Layout) : Bytes := Zip.endMark ++ writeFields endWidths a.endNumbers

/-- All bytes of the archive. -/
def bytes (a : Layout) : Bytes := a.front ++ a.endRecord

end Layout

/-! ### Where members stand -/

section Placements

variable {m : Part} {ms : List Part} {start offset : Nat} {p : Nat × Part}

/-- Every member stands where it is said to stand. -/
theorem split_of_mem_placements (mem : p ∈ placements start ms) : ∃ before after,
    bodyOf ms = before ++ (p.2.bytes ++ after) ∧ p.1 = start + before.length := by
  induction ms generalizing start with
  | nil => exact absurd mem List.not_mem_nil
  | cons m ms ih =>
    rcases List.mem_cons.1 mem with rfl | mem
    · exact ⟨[], bodyOf ms, rfl, rfl⟩
    · obtain ⟨before, after, split, place⟩ := ih mem
      refine ⟨m.bytes ++ before, after, ?_, ?_⟩
      · rw [bodyOf, List.flatMap_cons, ← bodyOf, split, List.append_assoc]
      · rw [place, List.length_append, Nat.add_assoc]

theorem le_of_mem_placements (mem : p ∈ placements start ms) : start ≤ p.1 := by
  obtain ⟨before, after, -, place⟩ := split_of_mem_placements mem
  omega

/-- No two members overlap. -/
theorem pairwise_placements (start : Nat) (ms : List Part) :
    (placements start ms).Pairwise fun p q => p.1 + p.2.bytes.length ≤ q.1 := by
  induction ms generalizing start with
  | nil => exact .nil
  | cons m ms ih => exact .cons (fun q mem => le_of_mem_placements mem) (ih _)

end Placements

/-! ### Local headers -/

/-- Where a whole header stands, it tells where the data lie. -/
theorem entryOf_eq_ok {container : String} {bytes header : Bytes} {m : Zip.Member} {offset : Nat}
    (place : m.headerOffset = offset) (near : offset < Nat.pow 256 4)
    (whole : Zip.slice bytes offset headerLength = header) (full : header.length = headerLength)
    (marked : headerMark.isPrefixOf header = true) : entryOf container bytes m =
      let dataOffset : Int := offset + headerLength + Zip.field header 26 2 + Zip.field header 28 2
      .ok ⟨m.name, offset, dataOffset, dataOffset + m.storedSize⟩ := by
  have limit : Nat.pow 256 4 = 0x100000000 := rfl
  have inReach : ¬((offset : Int) < -offsetReach ∨ offsetReach ≤ offset) := by
    rw [offsetReach]
    omega
  have inFile : ¬((offset : Int) < 0 ∨ maxOffset < offset) := by
    rw [maxOffset]
    omega
  rw [entryOf, place, if_neg inReach, if_neg inFile, Int.toNat_natCast, whole]
  dsimp only
  rw [if_neg (not_not_intro full), marked]
  rfl

namespace Part

variable {container : String} {before after bytes : Bytes} {offset : Nat}

theorem ascii (m : Part) : ∀ c ∈ m.name, c.toNat < 0x80 := by
  intro c mem
  have := (m.printable c mem).2
  omega

/-- The part of a local header that is of the same length in all of them. -/
theorem length_fixedHeader (m : Part) :
    (headerMark ++ writeFields headerWidths m.headerNumbers).length = headerLength := by
  rw [List.length_append, Zip.length_writeFields]
  · rfl
  · rfl

theorem length_header (m : Part) :
    m.header.length = headerLength + m.name.length + m.localExtra.length := by
  rw [header, ← List.append_assoc, List.length_append, length_fixedHeader, List.length_append,
    Utf8.length_encode_of_ascii m.ascii, Nat.add_assoc]

/-- What the directory tells of a member. -/
def member (m : Part) (offset : Nat) : Zip.Member :=
  { name := String.ofList m.name, storedSize := m.data.length, size := m.size % Nat.pow 256 4
    headerOffset := offset }

/-- Where a member lies that begins at an offset. -/
def entryAt (m : Part) (offset : Nat) : Entry :=
  { path := String.ofList m.name
    headerOffset := offset
    dataOffset := offset + m.header.length
    endOffset := offset + m.bytes.length }

theorem length_bytes (m : Part) : m.bytes.length = m.header.length + m.data.length :=
  List.length_append

/-- The entry of a member is read from its local header. -/
theorem entryOf_member (m : Part) (whole : bytes = before ++ (m.bytes ++ after))
    (start : before.length < Nat.pow 256 4) :
    entryOf container bytes (m.member before.length) = .ok (m.entryAt before.length) := by
  have fixed : Zip.slice bytes before.length headerLength =
      headerMark ++ writeFields headerWidths m.headerNumbers := by
    have split : bytes = before ++ ((headerMark ++ writeFields headerWidths m.headerNumbers) ++
        (Utf8.encode m.name ++ m.localExtra ++ m.data ++ after)) := by
      rw [whole, Part.bytes, header]
      simp only [List.append_assoc]
    rw [split, Zip.slice_append rfl m.length_fixedHeader.symm]
  -- the lengths that count are those in the local header
  have name : Zip.field (headerMark ++ (writeFields headerWidths m.headerNumbers ++ [])) 26 2 =
      m.name.length % Nat.pow 256 2 := Zip.field_writeFields headerMark [] 8 rfl rfl rfl
  have extra : Zip.field (headerMark ++ (writeFields headerWidths m.headerNumbers ++ [])) 28 2 =
      m.localExtra.length % Nat.pow 256 2 := Zip.field_writeFields headerMark [] 9 rfl rfl rfl
  rw [List.append_nil, Nat.mod_eq_of_lt m.name_lt] at name
  rw [List.append_nil, Nat.mod_eq_of_lt m.localExtra_lt] at extra
  rw [entryOf_eq_ok rfl start fixed m.length_fixedHeader
    (List.isPrefixOf_iff_prefix.2 (List.prefix_append _ _)), name, extra, entryAt]
  dsimp only
  rw [m.length_bytes, m.length_header]
  simp only [member, Int.natCast_add, Except.ok.injEq, Entry.mk.injEq, true_and]
  omega

end Part

/-! ### Entries of the directory -/

/-- A name in ASCII is the same in either kind of text. -/
theorem decode_codePage_of_ascii {s : List Char} (ascii : ∀ c ∈ s, c.toNat < 0x80) :
    CodePage.decode (Utf8.encode s) = s := by
  rw [Utf8.encode_of_ascii ascii, CodePage.decode, List.map_map]
  refine (List.map_congr_left fun c mem => ?_).trans (List.map_id s)
  rw [Function.comp_apply, CodePage.decodeByte, if_pos (Utf8.toUInt8_lt_of_ascii (ascii c mem)),
    Utf8.toNat_toUInt8_of_ascii (ascii c mem), Char.ofNat_toNat, id]

/-- Blocks without wide numbers leave a member as it is. -/
theorem takeExtra_blocks (k : Zip.Member) (blocks : List Block) :
    k.takeExtra (blocks.flatMap Block.bytes) = .ok k := by
  induction blocks with
  | nil => rw [Zip.Member.takeExtra]; rfl
  | cons b blocks ih =>
    have id : Zip.field ([] ++ (writeFields [2, 2] [b.id, b.data.length] ++
        (b.data ++ blocks.flatMap Block.bytes))) 0 2 = b.id % Nat.pow 256 2 :=
      Zip.field_writeFields [] _ 0 rfl rfl rfl
    have size : Zip.field ([] ++ (writeFields [2, 2] [b.id, b.data.length] ++
        (b.data ++ blocks.flatMap Block.bytes))) 2 2 = b.data.length % Nat.pow 256 2 :=
      Zip.field_writeFields [] _ 1 rfl rfl rfl
    rw [List.nil_append, Nat.mod_eq_of_lt b.id_lt] at id
    rw [List.nil_append, Nat.mod_eq_of_lt b.length_lt] at size
    have head : (writeFields [2, 2] [b.id, b.data.length]).length = 4 :=
      Zip.length_writeFields rfl
    have after : (writeFields [2, 2] [b.id, b.data.length] ++
        (b.data ++ blocks.flatMap Block.bytes)).drop (b.data.length + 4) =
          blocks.flatMap Block.bytes := by
      rw [← List.append_assoc]
      refine List.drop_left' ?_
      rw [List.length_append, head, Nat.add_comm]
    -- the first block is passed over, since it is not about wide numbers
    rw [List.flatMap_cons, Block.bytes, List.append_assoc, Zip.Member.takeExtra, id, size]
    dsimp only
    rw [if_neg, if_neg, if_neg b.id_ne, after]
    · exact ih
    · rw [List.length_append, List.length_append, head]
      omega
    · rw [List.length_append, head]
      omega

namespace Part

/-- The part of an entry that is of the same length in all of them. -/
theorem length_fixedEntry (m : Part) (offset : Nat) :
    (Zip.entryMark ++ writeFields entryWidths (m.entryNumbers offset)).length =
      Zip.entryLength := by
  rw [List.length_append, Zip.length_writeFields]
  · rfl
  · rfl

theorem length_entry (m : Part) (offset : Nat) : (m.entry offset).length =
    Zip.entryLength + m.name.length + (m.extra.flatMap Block.bytes).length := by
  rw [entry, ← List.append_assoc, List.length_append, length_fixedEntry, List.length_append,
    Utf8.length_encode_of_ascii m.ascii, Nat.add_assoc]

/-- A number of an entry, whatever comes after the entry. -/
theorem field_entry (m : Part) {offset : Nat} (rest : Bytes) (i : Nat) {width n start : Nat}
    (wide : entryWidths[i]? = some width) (written : (m.entryNumbers offset)[i]? = some n)
    (place : Zip.entryMark.length + (entryWidths.take i).sum = start) :
    Zip.field (m.entry offset ++ rest) start width = n % Nat.pow 256 width := by
  rw [entry, List.append_assoc, List.append_assoc]
  exact Zip.field_writeFields Zip.entryMark _ i wide written place

theorem partLengths_entry (m : Part) (offset : Nat) (rest : Bytes) :
    Zip.partLengths (m.entry offset ++ rest) =
      (m.name.length, (m.extra.flatMap Block.bytes).length, 0) := by
  have name : Zip.field (m.entry offset ++ rest) 28 2 = m.name.length % Nat.pow 256 2 :=
    m.field_entry rest 10 rfl rfl rfl
  have extra : Zip.field (m.entry offset ++ rest) 30 2 =
      (m.extra.flatMap Block.bytes).length % Nat.pow 256 2 := m.field_entry rest 11 rfl rfl rfl
  have comment : Zip.field (m.entry offset ++ rest) 32 2 = 0 % Nat.pow 256 2 :=
    m.field_entry rest 12 rfl rfl rfl
  rw [Zip.partLengths, name, extra, comment, Nat.mod_eq_of_lt m.name_lt,
    Nat.mod_eq_of_lt m.extra_lt]

theorem readName_name (m : Part) (flags : Nat) :
    Zip.readName flags (Utf8.encode m.name) = .ok (String.ofList m.name) := by
  -- a name is cut off where it has a NUL
  have whole : m.name.takeWhile (· ≠ '\x00') = m.name := by
    rw [List.takeWhile_eq_self_iff]
    intro c mem
    have low := (m.printable c mem).1
    rw [decide_eq_true_iff]
    rintro rfl
    exact absurd low (by decide)
  rw [Zip.readName]
  split
  · rw [Utf8.decode_encode]
    change Except.ok (String.ofList (m.name.takeWhile _)) = _
    rw [whole]
  · rw [decode_codePage_of_ascii m.ascii]
    change Except.ok (String.ofList (m.name.takeWhile _)) = _
    rw [whole]

/-- What the directory tells of a member is read from its entry. -/
theorem readMember_entry (m : Part) {offset : Nat} (rest : Bytes) (start : offset < Nat.pow 256 4)
    (length : m.data.length < Nat.pow 256 4) :
    Zip.readMember (m.entry offset ++ rest) = .ok (m.member offset) := by
  have version : Zip.field (m.entry offset ++ rest) 6 1 = m.stamp.version % Nat.pow 256 1 :=
    m.field_entry rest 1 rfl rfl rfl
  have storedSize : Zip.field (m.entry offset ++ rest) 20 4 = m.data.length % Nat.pow 256 4 :=
    m.field_entry rest 8 rfl rfl rfl
  have size : Zip.field (m.entry offset ++ rest) 24 4 = m.size % Nat.pow 256 4 :=
    m.field_entry rest 9 rfl rfl rfl
  have headerOffset : Zip.field (m.entry offset ++ rest) 42 4 = offset % Nat.pow 256 4 :=
    m.field_entry rest 16 rfl rfl rfl
  have fixed := m.length_fixedEntry offset
  have split : m.entry offset ++ rest =
      (Zip.entryMark ++ writeFields entryWidths (m.entryNumbers offset)) ++
        (Utf8.encode m.name ++ (m.extra.flatMap Block.bytes ++ rest)) := by
    rw [entry]
    simp only [List.append_assoc]
  have name : Zip.slice (m.entry offset ++ rest) Zip.entryLength m.name.length =
      Utf8.encode m.name := by
    rw [split]
    exact Zip.slice_append fixed.symm (Utf8.length_encode_of_ascii m.ascii).symm
  have extra : Zip.slice (m.entry offset ++ rest) (Zip.entryLength + m.name.length)
      (m.extra.flatMap Block.bytes).length = m.extra.flatMap Block.bytes := by
    rw [split, ← List.append_assoc]
    refine Zip.slice_append ?_ rfl
    rw [List.length_append, fixed, Utf8.length_encode_of_ascii m.ascii]
  have modern : ¬Zip.maxVersion < m.stamp.version % Nat.pow 256 1 :=
    Nat.not_lt.2 ((Nat.mod_le _ _).trans m.version_le)
  rw [Zip.readMember, partLengths_entry]
  dsimp only
  rw [name, extra, readName_name, version, storedSize, size, headerOffset]
  change (if Zip.maxVersion < m.stamp.version % Nat.pow 256 1 then _ else _) = _
  rw [if_neg modern, takeExtra_blocks, Nat.mod_eq_of_lt start, Nat.mod_eq_of_lt length]
  rfl

end Part

end Archive

end PackPlan
