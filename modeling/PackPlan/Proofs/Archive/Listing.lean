import PackPlan.Proofs.Archive.Layout

/-!
# The entries of an archive

The entries of an archive in the plain layout are those of its members. Everything that is read
agrees: the end record leads to the directory, the directory to the local headers, and these to
the data.

## Main definitions

* `Archive.between` — the bytes of a file from one offset up to another
* `Archive.Apart` — two entries do not overlap

## Main results

* `Archive.membersFrom_directoryOf` — the members are read from the directory
* `Archive.Layout.findEnd_bytes` — the directory is found from the end record
* `Archive.Layout.members_bytes` — the members of an archive are those of its directory
* `Archive.Layout.entries_bytes` — the entries of an archive, and what lies where they say
-/

namespace PackPlan

namespace Archive

/-! ### The directory -/

/-- The members are read from the directory, in its order. -/
theorem membersFrom_directoryOf (ds : List (Nat × Part))
    (fits : ∀ p ∈ ds, p.1 < Nat.pow 256 4 ∧ p.2.data.length < Nat.pow 256 4) :
    Zip.membersFrom 0 (directoryOf ds).length (directoryOf ds) =
      .ok (ds.map fun p => p.2.member p.1) := by
  induction ds with
  | nil => rw [Zip.membersFrom]; rfl
  | cons p ds ih =>
    rw [List.forall_mem_cons] at fits
    have length := p.2.length_entry p.1
    have long : Zip.entryLength = 46 := rfl
    have marked : Zip.entryMark.isPrefixOf (p.2.entry p.1 ++ directoryOf ds) = true := by
      rw [Part.entry, List.append_assoc]
      exact List.isPrefixOf_iff_prefix.2 (List.prefix_append _ _)
    -- what is left after an entry is as long as the entries after it
    rw [directoryOf, List.flatMap_cons, ← directoryOf, Zip.membersFrom, List.length_append,
      if_neg (by omega), if_neg (by omega), marked, if_neg (by simp), p.2.partLengths_entry]
    dsimp only
    rw [Nat.add_zero, ← length, p.2.readMember_entry _ fits.1.1 fits.1.2, List.drop_left,
      Nat.add_sub_cancel_left]
    change (Zip.membersFrom 0 _ _ >>= _) = _
    rw [ih fits.2, List.map_cons]
    change Except.ok _ = _
    rw [Int.add_zero]

/-! ### Ranges -/

/-- The bytes of a file from one offset up to another. -/
def between (bytes : Bytes) (start stop : Int) : Bytes :=
  Zip.slice bytes start.toNat (stop - start).toNat

theorem between_natCast {before part after : Bytes} {start stop : Int}
    (first : start = before.length) (last : stop = before.length + part.length) :
    between (before ++ (part ++ after)) start stop = part := by
  refine Zip.slice_append ?_ ?_ <;> omega

/-- Two entries lie apart. -/
def Apart (e e' : Entry) : Prop := e.endOffset ≤ e'.headerOffset ∨ e'.endOffset ≤ e.headerOffset

namespace Layout

variable (a : Layout) {p : Nat × Part}

/-! ### The end record -/

theorem length_endRecord : a.endRecord.length = Zip.endLength := by
  rw [endRecord, List.length_append, Zip.length_writeFields]
  · rfl
  · rfl

/-- A number of the end record. -/
theorem field_endRecord (i : Nat) {width n start : Nat} (wide : endWidths[i]? = some width)
    (written : a.endNumbers[i]? = some n)
    (place : Zip.endMark.length + (endWidths.take i).sum = start) :
    Zip.field a.endRecord start width = n % Nat.pow 256 width := by
  have read := Zip.field_writeFields Zip.endMark [] i wide written place
  rwa [List.append_nil] at read

theorem drop_bytes : a.bytes.drop a.front.length = a.endRecord := List.drop_left

theorem endLocation?_bytes : Zip.endLocation? a.bytes = some a.front.length := by
  have length : a.bytes.length = a.front.length + Zip.endLength := by
    rw [bytes, List.length_append, length_endRecord]
  have comment : Zip.field a.endRecord 20 2 = 0 := a.field_endRecord 6 rfl rfl rfl
  have marked : Zip.endMark.isPrefixOf a.endRecord = true :=
    List.isPrefixOf_iff_prefix.2 (List.prefix_append _ _)
  -- without a comment the end record is the last thing in the file
  rw [Zip.endLocation?, length, if_neg (by omega), Nat.add_sub_cancel]
  dsimp only
  rw [drop_bytes]
  exact if_pos ⟨marked, comment⟩

/-- The end record tells where the directory is, and how long. -/
theorem endRecordAt_bytes : Zip.endRecordAt a.bytes a.front.length =
    ⟨a.front.length, (directoryOf a.directory).length, (bodyOf a.parts).length, false⟩ := by
  have inside : ∀ start width, Zip.field a.bytes (a.front.length + start) width =
      Zip.field a.endRecord start width := by
    intro start width
    rw [Zip.field, Zip.slice, ← List.drop_drop, drop_bytes]
    rfl
  have size : Zip.field a.endRecord 12 4 = (directoryOf a.directory).length % Nat.pow 256 4 :=
    a.field_endRecord 4 rfl rfl rfl
  have offset : Zip.field a.endRecord 16 4 = (bodyOf a.parts).length % Nat.pow 256 4 :=
    a.field_endRecord 5 rfl rfl rfl
  rw [Nat.mod_eq_of_lt a.length_lt] at size
  rw [Nat.mod_eq_of_lt a.start_lt] at offset
  rw [Zip.endRecordAt, inside, inside, size, offset]

/-- There is no wide end record. -/
theorem findEnd_bytes : Zip.findEnd a.bytes =
    .ok ⟨a.front.length, (directoryOf a.directory).length, (bodyOf a.parts).length, false⟩ := by
  rw [Zip.findEnd, endLocation?_bytes]
  dsimp only
  rw [endRecordAt_bytes, Zip.widen]
  dsimp only
  split
  · rfl
  · next long =>
    rw [Nat.not_lt] at long
    -- a locator would stand at the end of what is before the end record
    have locator : Zip.slice a.bytes (a.front.length - Zip.locatorLength) Zip.locatorLength =
        a.front.drop (a.front.length - Zip.locatorLength) := by
      rw [Zip.slice, bytes, List.drop_append_of_le_length (Nat.sub_le _ _)]
      refine List.take_left' ?_
      rw [List.length_drop]
      omega
    have absent : Zip.locatorMark.isPrefixOf
        (a.front.drop (a.front.length - Zip.locatorLength)) = false := a.no_locator long
    rw [locator, absent]
    rfl

/-- Where a member stands in the file. -/
theorem split_bytes (mem : p ∈ a.directory) : ∃ before after,
    a.bytes = before ++ (p.2.bytes ++ after) ∧ p.1 = before.length ∧
      before.length + p.2.bytes.length ≤ (bodyOf a.parts).length := by
  obtain ⟨before, after, split, place⟩ := split_of_mem_placements (a.perm.mem_iff.1 mem)
  refine ⟨before, after ++ (directoryOf a.directory ++ a.endRecord), ?_, ?_, ?_⟩
  · rw [bytes, front, split]
    simp only [List.append_assoc]
  · rw [place, Nat.zero_add]
  · rw [split, List.length_append, List.length_append]
    omega

/-- The members of the archive are those of its directory. -/
theorem members_bytes : Zip.members a.bytes = .ok (a.directory.map fun p => p.2.member p.1) := by
  have length : a.front.length = (bodyOf a.parts).length + (directoryOf a.directory).length :=
    List.length_append
  have start : Zip.EndRecord.start ⟨a.front.length, (directoryOf a.directory).length,
      (bodyOf a.parts).length, false⟩ = (bodyOf a.parts).length := by
    rw [Zip.EndRecord.start]
    simp only [Bool.false_eq_true, if_false]
    omega
  -- nothing stands before the first member
  have shift : Zip.EndRecord.shift ⟨a.front.length, (directoryOf a.directory).length,
      (bodyOf a.parts).length, false⟩ = 0 := by
    rw [Zip.EndRecord.shift, start]
    exact Int.sub_self _
  have directory : Zip.slice a.bytes (bodyOf a.parts).length (directoryOf a.directory).length =
      directoryOf a.directory := by
    rw [bytes, front, List.append_assoc]
    exact Zip.slice_append rfl rfl
  have fits : ∀ p ∈ a.directory, p.1 < Nat.pow 256 4 ∧ p.2.data.length < Nat.pow 256 4 := by
    intro p mem
    obtain ⟨before, after, -, place, inside⟩ := a.split_bytes mem
    have whole := p.2.length_bytes
    have below : (bodyOf a.parts).length < Nat.pow 256 4 := a.start_lt
    exact ⟨by omega, by omega⟩
  rw [Zip.members, findEnd_bytes]
  dsimp only
  rw [start, shift, if_neg (Int.not_lt.2 (Int.natCast_nonneg _)), Int.toNat_natCast, directory]
  exact membersFrom_directoryOf a.directory fits

/-! ### Entries -/

/-- A member with a name has an entry, and this is where it stands. -/
theorem fileEntry_member {container : String} (mem : p ∈ a.directory) (named : p.2.name ≠ []) :
    fileEntry container a.bytes (p.2.member p.1) = .ok (some (p.2.entryAt p.1)) := by
  obtain ⟨before, after, split, place, inside⟩ := a.split_bytes mem
  have near : before.length < Nat.pow 256 4 := by
    have below : (bodyOf a.parts).length < Nat.pow 256 4 := a.start_lt
    omega
  obtain ⟨c, last⟩ := Option.ne_none_iff_exists'.1 (mt List.getLast?_eq_none_iff.1 named)
  have name : (p.2.member p.1).name.toList.getLast? = some c := by
    rw [Part.member, String.toList_ofList, last]
  rw [fileEntry, name, place]
  split
  · next none => cases none
  · next slash =>
    cases slash
    exact absurd last p.2.not_directory
  · rw [p.2.entryOf_member split near]
    rfl

/-- The bytes from the beginning of a header to that of the data are the header with name and
extra data, and those from there to the end are the data. -/
theorem between_entryAt (mem : p ∈ a.directory) :
    between a.bytes (p.2.entryAt p.1).headerOffset (p.2.entryAt p.1).dataOffset = p.2.header ∧
      between a.bytes (p.2.entryAt p.1).dataOffset (p.2.entryAt p.1).endOffset = p.2.data := by
  obtain ⟨before, after, split, place, -⟩ := a.split_bytes mem
  have length := p.2.length_bytes
  constructor
  · rw [split, Part.bytes, List.append_assoc]
    refine between_natCast ?_ ?_
    · rw [Part.entryAt, place]
    · rw [Part.entryAt, place]
  · rw [split, Part.bytes, List.append_assoc, ← List.append_assoc before]
    refine between_natCast ?_ ?_
    · rw [Part.entryAt, place, List.length_append, Int.natCast_add]
    · rw [Part.entryAt, place, length, List.length_append, Int.natCast_add, Int.natCast_add,
        Int.add_assoc]

theorem pairwise_apart :
    (a.directory.map fun p => p.2.entryAt p.1).Pairwise Apart := by
  rw [List.pairwise_map]
  -- the order of the directory makes no difference, since lying apart is symmetric
  refine (a.perm.pairwise_iff ?_).2 ?_
  · exact fun h => h.symm
  · refine (pairwise_placements 0 a.parts).imp fun {p q} before => .inl ?_
    rw [Part.entryAt, Part.entryAt]
    dsimp only
    omega

/-- The entries of an archive in the plain layout: one for each member, in the order of the
directory. Each tells where the header and the data of the member are, and no two overlap. -/
theorem entries_bytes (container : String) (named : ∀ p ∈ a.directory, p.2.name ≠ []) :
    entries container a.bytes = .ok (a.directory.map fun p => p.2.entryAt p.1) ∧
      (∀ p ∈ a.directory,
        between a.bytes (p.2.entryAt p.1).headerOffset (p.2.entryAt p.1).dataOffset =
            p.2.header ∧
          between a.bytes (p.2.entryAt p.1).dataOffset (p.2.entryAt p.1).endOffset = p.2.data) ∧
      (a.directory.map fun p => p.2.entryAt p.1).Pairwise Apart := by
  refine ⟨?_, fun p mem => a.between_entryAt mem, a.pairwise_apart⟩
  rw [entries, members_bytes]
  change ((a.directory.map fun p => p.2.member p.1).mapM (fileEntry container a.bytes) >>= _) = _
  rw [mapM_map_eq_ok fun p mem => a.fileEntry_member mem (named p mem)]
  change Except.ok (List.filterMap id _) = _
  rw [List.filterMap_map]
  exact congrArg Except.ok (congrFun List.filterMap_eq_map' _)

/-- Two members, of which the second has extra data, other in the directory than in its header,
and comes first in the directory. -/
def twoMembers : Layout :=
  let first : Part :=
    { name := ['a', '.', 'x'], data := [0x68, 0x69]
      printable := by simp, not_directory := by decide, version_le := by decide
      name_lt := by decide, localExtra_lt := by decide, extra_lt := by decide }
  let second : Part :=
    { name := ['b'], data := [1, 2, 3], size := 9
      localExtra := Block.bytes ⟨0x5455, [0, 0], by decide, by decide, by decide⟩
      extra := [⟨0x5455, [0], by decide, by decide, by decide⟩]
      stamp := { version := 63, method := 8 }
      printable := by simp, not_directory := by decide, version_le := by decide
      name_lt := by decide, localExtra_lt := by decide, extra_lt := by decide }
  { parts := [first, second]
    directory := (placements 0 [first, second]).reverse
    perm := List.reverse_perm _
    start_lt := by decide
    length_lt := by decide
    no_locator := by decide }

theorem entries_bytes_twoMembers : (∀ p ∈ twoMembers.directory, p.2.name ≠ []) ∧
    entries "x.bpak" twoMembers.bytes = .ok [⟨"b", 35, 72, 75⟩, ⟨"a.x", 0, 33, 35⟩] :=
  ⟨by decide, (entries_bytes twoMembers "x.bpak" (by decide)).1⟩

/-- A member whose name is empty. -/
def namelessMember : Layout :=
  let only : Part :=
    { name := [], data := [0x68, 0x69]
      printable := by simp, not_directory := by decide, version_le := by decide
      name_lt := by decide, localExtra_lt := by decide, extra_lt := by decide }
  { parts := [only]
    directory := placements 0 [only]
    perm := .refl _
    start_lt := by decide
    length_lt := by decide
    no_locator := by decide }

/-- The entries of an archive with a member whose name is empty are not listed. -/
theorem not_entries_namelessMember : namelessMember.directory.length = 1 ∧
    ∀ es, entries "x.bpak" namelessMember.bytes ≠ .ok es := by
  have fault : entries "x.bpak" namelessMember.bytes = .error .nameless := by
    rw [entries, members_bytes]
    decide +kernel
  refine ⟨rfl, fun es listed => ?_⟩
  rw [fault] at listed
  cases listed

end Layout

end Archive

end PackPlan
