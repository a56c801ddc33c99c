import PackPlan.Proofs.Archive.Bytes

/-!
# Where the entries of an archive lie

An entry lies where two headers put it: the directory tells where the local header begins and
how long the data are, and the local header tells how long the name and the extra data between
the two are. That the fixed part of the local header is there is checked. That the rest is there
is not, so that an entry may reach beyond the end of the file.

## Main definitions

* `Archive.toldLength` — what the headers of a member tell to follow the fixed part of the first
* `Archive.IsToldBy` — an entry lies where the headers of a member put it

## Main results

* `Archive.isToldBy_of_mem_entries` — every entry lies where the headers of a member put it
* `Archive.entries_ranges` — the parts of an entry follow each other, and when they are in the file
-/

namespace PackPlan.Archive

variable {container : String} {bytes : Bytes} {m : Zip.Member} {e : Entry} {es : List Entry}

/-- How many bytes the headers of a member tell to follow the fixed part of the local header: name
and extra data, as the local header tells, and the data, as the directory does. -/
def toldLength (bytes : Bytes) (m : Zip.Member) : Nat :=
  let header := Zip.slice bytes m.headerOffset.toNat headerLength
  Zip.field header 26 2 + Zip.field header 28 2 + m.storedSize

/-- An entry lies where the headers of a member put it. -/
structure IsToldBy (bytes : Bytes) (m : Zip.Member) (e : Entry) : Prop where
  path : e.path = m.name
  headerOffset : e.headerOffset = m.headerOffset
  /-- The fixed part of the local header is there, with its mark. -/
  nonneg : 0 ≤ e.headerOffset
  marked : headerMark <+: bytes.drop e.headerOffset.toNat
  inside : e.headerOffset + headerLength ≤ bytes.length
  /-- Name, extra data and data follow, of the lengths that are told. -/
  header_le : e.headerOffset + headerLength ≤ e.dataOffset
  dataOffset : e.dataOffset + m.storedSize = e.endOffset
  endOffset : e.endOffset = e.headerOffset + headerLength + toldLength bytes m

/-- The parts of an entry follow each other. -/
theorem IsToldBy.data_le (told : IsToldBy bytes m e) : e.dataOffset ≤ e.endOffset := by
  rw [← told.dataOffset]
  exact Int.le_add_of_nonneg_right (Int.natCast_nonneg _)

/-- An entry is in the file if and only if so many bytes follow as are told. -/
theorem IsToldBy.end_le_iff (told : IsToldBy bytes m e) : e.endOffset ≤ bytes.length ↔
    toldLength bytes m ≤ bytes.length - (m.headerOffset + headerLength) := by
  rw [told.endOffset, told.headerOffset]
  omega

theorem isToldBy_of_entryOf (h : entryOf container bytes m = .ok e) : IsToldBy bytes m e := by
  rw [entryOf] at h
  split at h
  · cases h
  split at h
  · cases h
  · next place =>
    dsimp only at h
    split at h
    · cases h
    · next full =>
      split at h
      · cases h
      · next marked =>
        cases h
        rw [not_or, Int.not_lt] at place
        -- a header that is not cut short ends before the file does
        have full : headerLength ≤ (bytes.drop m.headerOffset.toNat).length := by
          rw [← Decidable.not_not.1 full]
          exact List.length_take_le' _ _
        have long : 0 < headerLength := by decide
        rw [List.length_drop] at full
        rw [Bool.not_eq_true, Bool.not_eq_false', List.isPrefixOf_iff_prefix] at marked
        refine ⟨rfl, rfl, place.1, marked.trans (List.take_prefix _ _), ?_, ?_, rfl, ?_⟩
        · dsimp only
          omega
        · dsimp only
          omega
        · rw [toldLength]
          dsimp only
          omega

/-- Every entry lies where the headers of a member of the directory put it. -/
theorem isToldBy_of_mem_entries (h : entries container bytes = .ok es) (mem : e ∈ es) :
    ∃ ms, Zip.members bytes = .ok ms ∧ ∃ m ∈ ms, IsToldBy bytes m e := by
  obtain ⟨ms, directory, h⟩ := exists_of_bind_ok h
  obtain ⟨found, listing, h⟩ := exists_of_bind_ok h
  cases h
  obtain ⟨some_e, member, rfl⟩ := List.mem_filterMap.1 mem
  obtain ⟨m, there, step⟩ := exists_of_mem_mapM_ok listing member
  refine ⟨ms, eq_ok_of_mapError directory, m, there, ?_⟩
  rw [fileEntry] at step
  split at step
  · cases step
  · cases step
  · obtain ⟨e', step, same⟩ := exists_of_bind_ok step
    cases same
    exact isToldBy_of_entryOf step

/-- Of every entry that is listed the header comes first, then the data, and the thirty bytes with
which the header begins are in the file. The rest of the entry is in the file if and only if
there are so many bytes behind these as the headers of its member tell. -/
theorem entries_ranges (listed : entries container bytes = .ok es) :
    ∀ e ∈ es, 0 ≤ e.headerOffset ∧ e.headerOffset + headerLength ≤ e.dataOffset ∧
      e.dataOffset ≤ e.endOffset ∧ e.headerOffset + headerLength ≤ bytes.length ∧
      ∃ ms, Zip.members bytes = .ok ms ∧ ∃ m ∈ ms, IsToldBy bytes m e ∧
        (e.endOffset ≤ bytes.length ↔
          toldLength bytes m ≤ bytes.length - (m.headerOffset + headerLength)) := by
  intro e mem
  obtain ⟨ms, directory, m, there, told⟩ := isToldBy_of_mem_entries listed mem
  exact ⟨told.nonneg, told.header_le, told.data_le, told.inside, ms, directory, m, there, told,
    told.end_le_iff⟩

/-- An archive with one member of two bytes, of which the directory tells another length. -/
def oneMember (told : UInt8) : Bytes :=
  -- the local header, with the name, and the data
  [0x50, 0x4b, 0x03, 0x04, 20, 0, 0, 0, 0, 0, 0, 0, 0, 0, 0, 0, 0, 0, 2, 0, 0, 0, 2, 0, 0, 0, 1, 0,
    0, 0, 0x61, 0x68, 0x69,
  -- the entry of the directory, with the name
    0x50, 0x4b, 0x01, 0x02, 20, 0, 20, 0, 0, 0, 0, 0, 0, 0, 0, 0, 0, 0, 0, 0, told, 0, 0, 0, 2, 0,
    0, 0, 1, 0, 0, 0, 0, 0, 0, 0, 0, 0, 0, 0, 0, 0, 0, 0, 0, 0, 0x61,
  -- the end record
    0x50, 0x4b, 0x05, 0x06, 0, 0, 0, 0, 1, 0, 1, 0, 47, 0, 0, 0, 33, 0, 0, 0, 0, 0]

/-- Where the length is told as it is, the entry is in the file. -/
theorem entries_ranges_oneMember :
    entries "box" (oneMember 2) = .ok [⟨"a", 0, 31, 33⟩] ∧
      ∃ m, IsToldBy (oneMember 2) m ⟨"a", 0, 31, 33⟩ ∧
        (toldLength (oneMember 2) m : Int) ≤ 102 - (m.headerOffset + headerLength) := by
  have listed : entries "box" (oneMember 2) = .ok [⟨"a", 0, 31, 33⟩] := by decide +kernel
  obtain ⟨-, -, -, -, ms, -, m, -, told, inside⟩ :=
    entries_ranges listed _ (List.mem_singleton_self _)
  exact ⟨listed, m, told, inside.1 (by decide)⟩

/-- Where it is told too large, the entry reaches beyond the end of the file. -/
theorem not_inside_oneMember :
    ∃ es, entries "box" (oneMember 200) = .ok es ∧
      ¬∀ e ∈ es, e.endOffset ≤ (oneMember 200).length := by
  have listed : entries "box" (oneMember 200) = .ok [⟨"a", 0, 31, 231⟩] := by decide +kernel
  refine ⟨_, listed, fun inside => ?_⟩
  exact absurd (inside _ (List.mem_singleton_self _)) (by decide)

end PackPlan.Archive
