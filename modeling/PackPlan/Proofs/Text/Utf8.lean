import Mathlib.Data.List.Basic
import PackPlan.Text.Utf8

/-!
# Text read back from its bytes

The bytes of a text are read as this text, and not only as a whole. Bytes that are the front of an
encoded text are read as whole characters, and what is left of them is less than the next
character takes. So it does not matter where a file is cut into blocks, as long as what a block
leaves unfinished goes before the next.

## Main definitions

* `Utf8.tail` — the bytes of a character after the first
* `Utf8.Leads` — the first byte of a number with so many bytes after it
* `Utf8.FallsShort` — bytes that are too few for the next character of a text

## Main results

* `Utf8.exists_leads` — the bytes of a character, the first and those after it
* `Utf8.front_of_leads`, `Utf8.front_of_prefix` — a character is recognised at the front of bytes,
  and so is the beginning of one
* `Utf8.exists_read_of_append` — what the front of an encoded text is read as
* `Utf8.decode_encode` — the bytes of a text are read as this text
-/

namespace PackPlan.Utf8

variable {c : Char} {s : List Char} {b lead : UInt8} {bytes part rest : Bytes} {n count : Nat}

/-! ### The bytes of a character -/

/-- The bytes after the first: the last `count` digits of a number in base 64. -/
def tail (n : Nat) : (count : Nat) → Bytes
  | 0 => []
  | count + 1 => (0x80 + n / Nat.pow 64 count % 64).toUInt8 :: tail n count

/-- A first byte announces `count` more bytes, and with them stands for a number. -/
structure Leads (lead : UInt8) (count n : Nat) : Prop where
  width : widthOf lead = count + 1
  bits : leadBits (count + 1) lead = n / Nat.pow 64 count
  second : ∀ b ∈ (tail n count).head?, admitsSecond lead b = true

theorem length_tail (n count : Nat) : (tail n count).length = count := by
  induction count with
  | zero => rfl
  | succ count ih => rw [tail, List.length_cons, ih]

theorem toNat_toUInt8 (small : n < 256) : n.toUInt8.toNat = n := Nat.mod_eq_of_lt small

theorem isContinuation_iff : isContinuation b = true ↔ 128 ≤ b.toNat ∧ b.toNat < 192 := by
  simp [isContinuation, UInt8.le_iff_toNat_le, UInt8.lt_iff_toNat_lt]

theorem widthOf_eq (lead : UInt8) : widthOf lead =
    if lead.toNat < 128 then 1
    else if lead.toNat < 194 then 0
    else if lead.toNat < 224 then 2
    else if lead.toNat < 240 then 3
    else if lead.toNat < 245 then 4
    else 0 := by
  simp [widthOf, UInt8.lt_iff_toNat_lt]

theorem admitsSecond_iff : admitsSecond lead b = true ↔ (128 ≤ b.toNat ∧ b.toNat < 192) ∧
    (lead.toNat = 224 → 160 ≤ b.toNat) ∧ (lead.toNat = 237 → b.toNat < 160) ∧
    (lead.toNat = 240 → 144 ≤ b.toNat) ∧ (lead.toNat = 244 → b.toNat < 144) := by
  simp [admitsSecond, isContinuation_iff, UInt8.le_iff_toNat_le, UInt8.lt_iff_toNat_lt,
    ← UInt8.toNat_inj, and_assoc]
  omega

theorem toNat_lt_of_char (c : Char) : c.toNat < 55296 ∨ 57343 < c.toNat ∧ c.toNat < 1114112 :=
  c.valid

/-- The bytes of a character are one that leads and the digits that it announces. -/
theorem exists_leads (c : Char) :
    ∃ lead count, encodeChar c = lead :: tail c.toNat count ∧ Leads lead count c.toNat := by
  have valid := toNat_lt_of_char c
  have powers : Nat.pow 64 0 = 1 ∧ Nat.pow 64 1 = 64 ∧ Nat.pow 64 2 = 4096 ∧
      Nat.pow 64 3 = 262144 := by decide
  obtain ⟨zero, one, two, three⟩ := powers
  rw [encodeChar]
  dsimp only
  generalize c.toNat = n at valid ⊢
  -- one case for each number of bytes; the bounds on the number keep the first byte in its range,
  -- and the second one clear of overlong forms, of surrogates and of what is beyond the last
  split
  · refine ⟨_, 0, rfl, ?width, ?bits, by simp [tail]⟩
    case width => rw [widthOf_eq, toNat_toUInt8 (by omega), if_pos (by omega)]
    case bits =>
      change UInt8.toNat _ = _
      rw [toNat_toUInt8 (by omega), zero, Nat.div_one]
  split
  · refine ⟨_, 1, rfl, ?width, ?bits, ?second⟩
    case width =>
      rw [widthOf_eq, toNat_toUInt8 (by omega), if_neg (by omega), if_neg (by omega),
        if_pos (by omega)]
    case bits =>
      change UInt8.toNat _ - 192 = _
      rw [toNat_toUInt8 (by omega), one]
      omega
    case second =>
      rintro b ⟨⟩
      rw [admitsSecond_iff, toNat_toUInt8 (by omega), toNat_toUInt8 (by omega), zero]
      omega
  split
  · refine ⟨_, 2, rfl, ?width, ?bits, ?second⟩
    case width =>
      rw [widthOf_eq, toNat_toUInt8 (by omega), if_neg (by omega), if_neg (by omega),
        if_neg (by omega), if_pos (by omega)]
    case bits =>
      change UInt8.toNat _ - 224 = _
      rw [toNat_toUInt8 (by omega), two]
      omega
    case second =>
      rintro b ⟨⟩
      rw [admitsSecond_iff, toNat_toUInt8 (by omega), toNat_toUInt8 (by omega), one]
      omega
  · refine ⟨_, 3, rfl, ?width, ?bits, ?second⟩
    case width =>
      rw [widthOf_eq, toNat_toUInt8 (by omega), if_neg (by omega), if_neg (by omega),
        if_neg (by omega), if_neg (by omega), if_pos (by omega)]
    case bits =>
      change UInt8.toNat _ - 240 = _
      rw [toNat_toUInt8 (by omega), three]
      omega
    case second =>
      rintro b ⟨⟩
      rw [admitsSecond_iff, toNat_toUInt8 (by omega), toNat_toUInt8 (by omega), two]
      omega

theorem encodeChar_ne_nil (c : Char) : encodeChar c ≠ [] := by
  obtain ⟨lead, count, bytes, -⟩ := exists_leads c
  rw [bytes]
  exact List.cons_ne_nil _ _

/-! ### Characters at the front of bytes -/

theorem isContinuation_of_digit (n : Nat) : isContinuation (0x80 + n % 64).toUInt8 = true := by
  rw [isContinuation_iff, toNat_toUInt8 (by omega)]
  omega

/-- One more digit of a number in base 64. -/
theorem digit_step (n count : Nat) :
    n / Nat.pow 64 (count + 1) * 64 +
      ((0x80 + n / Nat.pow 64 count % 64).toUInt8.toNat - 0x80) = n / Nat.pow 64 count := by
  have power : Nat.pow 64 (count + 1) = Nat.pow 64 count * 64 := rfl
  rw [toNat_toUInt8 (by omega), Nat.add_sub_cancel_left, power, ← Nat.div_div_eq_div_mul]
  exact Nat.div_add_mod' _ 64

/-- The digits after the first byte give the number. -/
theorem frontAfter_tail (n width count : Nat) (rest : Bytes) :
    frontAfter (n / Nat.pow 64 count) width count (tail n count ++ rest) =
      .char (Char.ofNat n) (width + count) := by
  induction count generalizing width with
  | zero => exact congrArg (fun n => Front.char (Char.ofNat n) width) (Nat.div_one n)
  | succ count ih =>
    rw [tail, List.cons_append, frontAfter, if_pos (isContinuation_of_digit _), digit_step, ih,
      Nat.add_assoc, Nat.add_comm 1]

/-- Fewer digits than were announced give nothing yet. -/
theorem frontAfter_of_prefix (n width : Nat) (fewer : part <+: tail n count)
    (short : part.length < count) :
    frontAfter (n / Nat.pow 64 count) width count part = .unfinished := by
  induction count generalizing width part with
  | zero => exact absurd short (Nat.not_lt_zero _)
  | succ count ih =>
    cases part with
    | nil => rfl
    | cons b part =>
      obtain ⟨rfl, later⟩ := List.cons_prefix_cons.1 fewer
      rw [frontAfter, if_pos (isContinuation_of_digit _), digit_step]
      exact ih (width + 1) later (Nat.lt_of_succ_lt_succ short)

/-- A character is recognised at the front of bytes. -/
theorem front_of_leads (leads : Leads lead count n) (rest : Bytes) :
    front lead (tail n count ++ rest) = .char (Char.ofNat n) (count + 1) := by
  have digits := frontAfter_tail n 1 count rest
  rw [← leads.bits, Nat.add_comm 1] at digits
  unfold front
  rw [leads.width]
  cases count with
  | zero => exact digits
  | succ count =>
    -- the second byte is looked at twice: whether the first admits it, and as a digit
    refine (if_pos ?_).trans digits
    exact leads.second _ rfl

/-- The beginning of a character is recognised as such. -/
theorem front_of_prefix (leads : Leads lead count n) (fewer : part <+: tail n count)
    (short : part.length < count) : front lead part = .unfinished := by
  have digits := frontAfter_of_prefix n 1 fewer short
  rw [← leads.bits] at digits
  unfold front
  rw [leads.width]
  cases count with
  | zero => exact digits
  | succ count =>
    cases part with
    | nil => exact digits
    | cons b part =>
      refine (if_pos ?_).trans digits
      obtain ⟨rfl, -⟩ := List.cons_prefix_cons.1 fewer
      exact leads.second _ rfl

/-! ### Text at the front of bytes -/

/-- The bytes of a character that has been read are passed over. -/
theorem readFrom_skip (bytes rest : Bytes) (offset : Nat) (done : List Char) :
    readFrom bytes.length offset done (bytes ++ rest) =
      readFrom 0 (offset + bytes.length) done rest := by
  induction bytes generalizing offset with
  | nil => rfl
  | cons b bytes ih =>
    rw [List.length_cons, List.cons_append, readFrom, ih, Nat.add_assoc, Nat.add_comm 1]

theorem readFrom_encodeChar (c : Char) (rest : Bytes) (offset : Nat) (done : List Char) :
    readFrom 0 offset done (encodeChar c ++ rest) =
      readFrom 0 (offset + (encodeChar c).length) (c :: done) rest := by
  obtain ⟨lead, count, bytes, leads⟩ := exists_leads c
  have skip := readFrom_skip (tail c.toNat count) rest (offset + 1) (c :: done)
  have place : offset + (count + 1) = offset + 1 + count := by omega
  rw [length_tail] at skip
  rw [bytes, List.cons_append, readFrom, front_of_leads leads, Char.ofNat_toNat, List.length_cons,
    length_tail, place]
  exact skip

/-- Bytes that are too few for the next character of a text. -/
def FallsShort (bytes : Bytes) (s : List Char) : Prop :=
  ∀ c later, s = c :: later → bytes.length < (encodeChar c).length

theorem FallsShort.nil (s : List Char) : FallsShort [] s := fun c _ _ =>
  List.length_pos_iff.2 (encodeChar_ne_nil c)

theorem FallsShort.eq_nil (short : FallsShort (encode s) s) : s = [] := by
  cases s with
  | nil => rfl
  | cons c s =>
    have less := short c s rfl
    rw [encode, List.flatMap_cons, List.length_append] at less
    omega

/-- The front of an encoded text is read as whole characters, and what is left of it falls short
of the next. -/
theorem exists_readFrom_of_append (whole : bytes ++ rest = encode s) (offset : Nat)
    (done : List Char) : ∃ front back left, s = front ++ back ∧
      readFrom 0 offset done bytes = { text := done.reverse ++ front, unfinished := left } ∧
      left ++ rest = encode back ∧ FallsShort left back := by
  induction s generalizing bytes offset done with
  | nil =>
    obtain ⟨rfl, rfl⟩ := List.append_eq_nil_iff.1 whole
    exact ⟨[], [], [], rfl, by rw [List.append_nil]; rfl, rfl, .nil _⟩
  | cons c s ih =>
    -- bytes and character are both at the front of one list, so one is a prefix of the other
    by_cases short : bytes.length < (encodeChar c).length
    · -- not even one character is whole
      refine ⟨[], c :: s, bytes, rfl, ?_, whole, fun d later same => ?_⟩
      · rw [List.append_nil]
        cases bytes with
        | nil => rfl
        | cons lead part =>
          obtain ⟨lead', count, there, leads⟩ := exists_leads c
          have fewer : lead :: part <+: encodeChar c := by
            have front : lead :: part <+: encodeChar c ++ encode s := ⟨rest, whole⟩
            exact List.prefix_of_prefix_length_le front (List.prefix_append _ _)
              (Nat.le_of_lt short)
          rw [there] at fewer short
          obtain ⟨rfl, digits⟩ := List.cons_prefix_cons.1 fewer
          rw [List.length_cons, List.length_cons, length_tail] at short
          rw [readFrom, front_of_prefix leads digits (Nat.lt_of_succ_lt_succ short)]
      · obtain ⟨rfl, -⟩ := List.cons.inj same
        exact short
    · obtain ⟨bytes', rfl⟩ : encodeChar c <+: bytes := by
        have front : bytes <+: encodeChar c ++ encode s := ⟨rest, whole⟩
        exact List.prefix_of_prefix_length_le (List.prefix_append _ _) front
          (Nat.le_of_not_lt short)
      have later : bytes' ++ rest = encode s :=
        List.append_cancel_left ((List.append_assoc _ _ _).symm.trans whole)
      obtain ⟨front, back, left, rfl, read, cut, falls⟩ :=
        ih later (offset + (encodeChar c).length) (c :: done)
      refine ⟨c :: front, back, left, rfl, ?_, cut, falls⟩
      rw [readFrom_encodeChar, read, List.reverse_cons, List.append_assoc, List.singleton_append]

theorem exists_read_of_append (whole : bytes ++ rest = encode s) :
    ∃ front back left, s = front ++ back ∧ read bytes = { text := front, unfinished := left } ∧
      left ++ rest = encode back ∧ FallsShort left back :=
  exists_readFrom_of_append whole 0 []

/-- The bytes of a text are read as this text. -/
theorem decode_encode (s : List Char) : decode (encode s) = .ok s := by
  obtain ⟨front, back, left, rfl, read, cut, short⟩ :=
    exists_read_of_append (List.append_nil (encode s))
  rw [List.append_nil] at cut
  subst cut
  obtain rfl := short.eq_nil
  rw [decode, read, List.append_nil]
  rfl

end PackPlan.Utf8
