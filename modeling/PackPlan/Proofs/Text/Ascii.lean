import PackPlan.Proofs.Text.Utf8
import PackPlan.Text.Lines

/-!
# ASCII files

A text in ASCII is one byte for each character, and these bytes are low ones. A text whose lines
end in line feeds has nothing to be done about its line ends.

## Main results

* `Utf8.encode_of_ascii` — one byte for each character
* `Text.unifyLines_eq_self` — a text whose lines end in line feeds stays as it is
-/

namespace PackPlan

variable {c : Char} {s : List Char}

namespace Utf8

theorem encodeChar_of_ascii (ascii : c.toNat < 0x80) : encodeChar c = [c.toNat.toUInt8] := by
  rw [encodeChar]
  exact if_pos ascii

/-- A text in ASCII is one byte for each character. -/
theorem encode_of_ascii (ascii : ∀ c ∈ s, c.toNat < 0x80) :
    encode s = s.map fun c => c.toNat.toUInt8 := by
  induction s with
  | nil => rfl
  | cons c s ih =>
    rw [encode, List.flatMap_cons, encodeChar_of_ascii (ascii c (by simp)), List.singleton_append,
      ← encode, ih fun d mem => ascii d (List.mem_cons_of_mem c mem), List.map_cons]

theorem length_encode_of_ascii (ascii : ∀ c ∈ s, c.toNat < 0x80) :
    (encode s).length = s.length := by
  rw [encode_of_ascii ascii, List.length_map]

theorem toNat_toUInt8_of_ascii (ascii : c.toNat < 0x80) : c.toNat.toUInt8.toNat = c.toNat :=
  toNat_toUInt8 (Nat.lt_trans ascii (by decide))

/-- The byte of a character in ASCII is one of the low ones. -/
theorem toUInt8_lt_of_ascii (ascii : c.toNat < 0x80) : c.toNat.toUInt8 < 0x80 := by
  rw [UInt8.lt_iff_toNat_lt, toNat_toUInt8_of_ascii ascii]
  exact ascii

end Utf8

namespace Text

/-- A text whose lines end in line feeds stays as it is. -/
theorem unifyLines_eq_self (feeds : '\r' ∉ s) : unifyLines s = s := by
  rw [unifyLines]
  induction s with
  | nil => rfl
  | cons c s ih =>
    rw [List.mem_cons, not_or] at feeds
    rw [unifyLinesFrom, if_neg (Ne.symm feeds.1), if_neg (by simp), ih feeds.2]

end Text

end PackPlan
