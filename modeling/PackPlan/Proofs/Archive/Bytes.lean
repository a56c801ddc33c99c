import PackPlan.Archive.Entry
import PackPlan.Proofs.Numeral.ReadBack
import PackPlan.Proofs.Results

/-!
# The numbers of an archive

The numbers in an archive stand in fields of a few bytes. They are not large, and what is written
into a field is read out of it.

## Main definitions

* `Zip.bytesOf`, `Zip.writeFields` — numbers as bytes, and fields side by side

## Main results

* `Zip.field_lt` — a number in a field is below a power of 256
* `Zip.field_writeFields` — the number in one of several fields
* `Zip.storedSize_lt_of_mem_members` — how long the data of a member can be
* `Archive.bounds_of_mem_entries` — where an entry of an archive can lie
-/

namespace PackPlan

namespace Zip

variable {bytes data extra : Bytes} {m m' : Member} {ms : List Member} {shift : Int} {left : Nat}

theorem number_lt (bytes : Bytes) : number bytes < Nat.pow 256 bytes.length := by
  induction bytes with
  | nil => exact Nat.one_pos
  | cons b bytes ih =>
    have byte : b.toNat < 256 := b.toNat_lt
    have rest : number bytes + 1 ≤ Nat.pow 256 bytes.length := ih
    have power : Nat.pow 256 (bytes.length + 1) = Nat.pow 256 bytes.length * 256 := rfl
    rw [number, List.foldr_cons, ← number, List.length_cons, power]
    omega

/-- A number in a field is below a power of 256. -/
theorem field_lt (bytes : Bytes) (offset count : Nat) :
    field bytes offset count < Nat.pow 256 count :=
  (number_lt _).trans_le (Nat.pow_le_pow_right (by decide) (List.length_take_le _ _))

/-! ### Fields that are written -/

/-- A number as so many bytes, the least significant first. -/
def bytesOf : (width : Nat) → (n : Nat) → Bytes
  | 0, _ => []
  | width + 1, n => UInt8.ofNat n :: bytesOf width (n / 256)

/-- Fields side by side, of given widths and with given numbers. -/
def writeFields (widths numbers : List Nat) : Bytes :=
  (List.zipWith bytesOf widths numbers).flatten

theorem length_bytesOf (width n : Nat) : (bytesOf width n).length = width := by
  induction width generalizing n with
  | zero => rfl
  | succ width ih => rw [bytesOf, List.length_cons, ih]

theorem length_writeFields {widths numbers : List Nat} (same : widths.length = numbers.length) :
    (writeFields widths numbers).length = widths.sum := by
  induction widths generalizing numbers with
  | nil => rfl
  | cons width widths ih =>
    cases numbers with
    | nil => cases same
    | cons n numbers =>
      rw [writeFields, List.zipWith_cons_cons, List.flatten_cons, ← writeFields,
        List.length_append, length_bytesOf, ih (Nat.succ.inj same), List.sum_cons]

/-- What is written is read, as far as it fits. -/
theorem number_bytesOf (width n : Nat) : number (bytesOf width n) = n % Nat.pow 256 width := by
  induction width generalizing n with
  | zero => exact (Nat.mod_one n).symm
  | succ width ih =>
    have low : (UInt8.ofNat n).toNat = n % 256 := UInt8.toNat_ofNat'
    have power : Nat.pow 256 (width + 1) = 256 * Nat.pow 256 width := Nat.pow_succ'
    rw [bytesOf, number, List.foldr_cons, ← number, ih, low, power, Nat.mod_mul]

/-- What stands between other bytes. -/
theorem slice_append {before part after : Bytes} {offset count : Nat}
    (start : offset = before.length) (length : count = part.length) :
    slice (before ++ (part ++ after)) offset count = part := by
  rw [slice, start, List.drop_left, length, List.take_left]

/-- The number in one of the fields that follow a mark, by its index. -/
theorem field_writeFields (mark rest : Bytes) {widths numbers : List Nat} (i : Nat)
    {width n offset : Nat} (wide : widths[i]? = some width) (written : numbers[i]? = some n)
    (place : mark.length + (widths.take i).sum = offset) :
    field (mark ++ (writeFields widths numbers ++ rest)) offset width = n % Nat.pow 256 width := by
  induction widths generalizing mark numbers i with
  | nil => cases wide
  | cons w widths ih =>
    cases numbers with
    | nil => cases written
    | cons k numbers =>
      rw [writeFields, List.zipWith_cons_cons, List.flatten_cons, ← writeFields,
        List.append_assoc]
      cases i with
      | zero =>
        cases wide
        cases written
        rw [field, slice_append place.symm (length_bytesOf width n).symm, number_bytesOf]
      | succ i =>
        rw [← List.append_assoc]
        refine ih (mark ++ bytesOf w k) i wide written ?_
        rw [← place, List.length_append, length_bytesOf, List.take_succ_cons, List.sum_cons,
          Nat.add_assoc]

/-! ### The data of members -/

theorem storedSize_lt_of_takeWideFields (h : m.takeWideFields data = .ok m')
    (small : m.storedSize < Nat.pow 256 8) : m'.storedSize < Nat.pow 256 8 := by
  obtain ⟨⟨size, rest⟩, -, h⟩ := exists_of_ite_bind_ok h
  obtain ⟨⟨storedSize, last⟩, stored, h⟩ := exists_of_ite_bind_ok h
  obtain ⟨⟨offset, none⟩, -, h⟩ := exists_of_ite_bind_ok h
  cases h
  -- of the three numbers only the second one is how long the data are
  dsimp only at stored ⊢
  split at stored
  · rw [takeWide] at stored
    split at stored
    · cases stored
    · cases stored
      exact field_lt _ _ _
  · cases stored
    exact small

theorem storedSize_lt_of_takeExtra (h : m.takeExtra extra = .ok m')
    (small : m.storedSize < Nat.pow 256 8) : m'.storedSize < Nat.pow 256 8 := by
  induction whole : extra.length using Nat.strong_induction_on generalizing extra m with
  | _ n ih =>
    rw [Member.takeExtra] at h
    split at h
    · cases h; exact small
    · next long =>
      dsimp only at h
      split at h
      · cases h
      · obtain ⟨mid, first, h⟩ := exists_of_ite_bind_ok h
        refine ih _ ?_ h ?_ rfl
        · -- a block has four bytes at least
          rw [List.length_drop]
          omega
        · split at first
          · exact storedSize_lt_of_takeWideFields first small
          · cases first; exact small

theorem storedSize_lt_of_readMember (h : readMember bytes = .ok m) :
    m.storedSize < Nat.pow 256 8 := by
  obtain ⟨name, -, h⟩ := exists_of_bind_ok h
  dsimp only at h
  split at h
  · cases h
  · refine storedSize_lt_of_takeExtra (eq_ok_of_mapError h) ?_
    exact (field_lt _ _ _).trans_le (Nat.pow_le_pow_right (by decide) (by decide))

theorem storedSize_lt_of_membersFrom (h : membersFrom shift left bytes = .ok ms) :
    ∀ m ∈ ms, m.storedSize < Nat.pow 256 8 := by
  induction left using Nat.strong_induction_on generalizing bytes ms with
  | _ left ih =>
    rw [membersFrom] at h
    split at h
    · cases h; simp
    split at h
    · cases h
    split at h
    · cases h
    · next rest _ _ =>
      obtain ⟨m, first, h⟩ := exists_of_bind_ok h
      obtain ⟨later, rest, h⟩ := exists_of_bind_ok h
      cases h
      rw [List.forall_mem_cons]
      refine ⟨storedSize_lt_of_readMember (m := m) first, ih _ ?_ rest⟩
      -- an entry takes up some of what is left
      have : 0 < entryLength := by decide
      omega

/-- The data of a member are not longer than 64 bits can tell. -/
theorem storedSize_lt_of_mem_members (h : members bytes = .ok ms) (mem : m ∈ ms) :
    m.storedSize < Nat.pow 256 8 := by
  rw [members] at h
  split at h
  · cases h
  · split at h
    · cases h
    · exact storedSize_lt_of_membersFrom h m mem

end Zip

namespace Archive

variable {container : String} {bytes : Bytes} {m : Zip.Member} {e : Entry} {es : List Entry}

/-- A header begins where a file can be, and is not longer than its fields can tell. -/
theorem bounds_of_entryOf (h : entryOf container bytes m = .ok e) :
    0 ≤ e.headerOffset ∧ e.headerOffset ≤ maxOffset ∧ headerLength ≤ e.headerSize ∧
      e.headerSize < headerLength + 2 * Nat.pow 256 2 ∧ e.payloadSize = m.storedSize := by
  rw [entryOf] at h
  split at h
  · cases h
  split at h
  · cases h
  · next inside =>
    dsimp only at h
    split at h
    · cases h
    split at h
    · cases h
    · cases h
      have name := Zip.field_lt (Zip.slice bytes m.headerOffset.toNat headerLength) 26 2
      have extra := Zip.field_lt (Zip.slice bytes m.headerOffset.toNat headerLength) 28 2
      rw [not_or, Int.not_lt, Int.not_lt] at inside
      refine ⟨inside.1, inside.2, ?_, ?_, ?_⟩
      · dsimp only [Entry.headerSize]
        omega
      · dsimp only [Entry.headerSize]
        omega
      · dsimp only [Entry.payloadSize]
        omega

/-- The numbers of an entry are not larger than the fields of an archive allow. -/
theorem bounds_of_mem_entries (h : entries container bytes = .ok es) (mem : e ∈ es) :
    0 ≤ e.headerOffset ∧ e.headerOffset ≤ maxOffset ∧ headerLength ≤ e.headerSize ∧
      e.headerSize < headerLength + 2 * Nat.pow 256 2 ∧ 0 ≤ e.payloadSize ∧
      e.payloadSize < Nat.pow 256 8 := by
  obtain ⟨ms, directory, h⟩ := exists_of_bind_ok h
  obtain ⟨found, listing, h⟩ := exists_of_bind_ok h
  cases h
  obtain ⟨some_e, member, rfl⟩ := List.mem_filterMap.1 mem
  obtain ⟨m, there, step⟩ := exists_of_mem_mapM_ok listing member
  have stored := Zip.storedSize_lt_of_mem_members (eq_ok_of_mapError directory) there
  rw [fileEntry] at step
  split at step
  · cases step
  · cases step
  · obtain ⟨e', step, same⟩ := exists_of_bind_ok step
    cases same
    obtain ⟨low, high, short, long, payload⟩ := bounds_of_entryOf step
    rw [payload]
    exact ⟨low, high, short, long, Int.natCast_nonneg _, by omega⟩

end Archive

end PackPlan
