import PackPlan.Json.Printer
import PackPlan.Json.Reader
import PackPlan.Proofs.Identity

/-!
# Written strings read back

In a written string every character stands for itself or is escaped: by a letter, by the
number of its code unit, or by the numbers of the two halves of a surrogate pair. The reader
takes the escapes apart again, one character at a time, whatever the string goes on with.

## Main definitions

* `StandsAs` — the ways in which a character may stand in a string

## Main results

* `standsAs_escapeChar` — how a character stands in a string
* `StandsAs.readStringFrom` — the reader takes it off the front of one
* `readString_writeString` — a written string reads back
* `isVisible_of_mem_writeString` — it is written in visible ASCII and spaces
-/

namespace PackPlan.Json

variable {c e : Char} {n : Nat} {s rest start done : List Char}

/-! ### Numbered escapes -/

theorem hexValue?_digitChar {d : Nat} (below : d < 16) : hexValue? d.digitChar = some d := by
  rw [hexValue?, if_pos (Numeral.isDigit_digitChar .hexadecimal below),
    Numeral.glyphValue?_digitChar below]

theorem readHex4?_hexPadded (below : n < 0x10000) :
    readHex4? (Text.hexPadded 4 n ++ rest) = some (n, rest) := by
  -- four digits are read in two pairs, and what is above them is cut off in writing
  have digits : Text.hexPadded 4 n = [(n / 4096 % 16).digitChar, (n / 256 % 16).digitChar,
      (n / 16 % 16).digitChar, (n / 1 % 16).digitChar] := rfl
  have sum : (n / 4096 % 16 * 16 + n / 256 % 16) * 256 + (n / 16 % 16 * 16 + n / 1 % 16) = n := by
    omega
  rw [digits]
  simp only [List.cons_append, List.nil_append, readHex4?,
    hexValue?_digitChar (Nat.mod_lt _ (by decide : 0 < 16)), Option.bind_eq_bind, Option.bind_some,
    Option.pure_def, sum]

theorem isLongerThan_append (length : s.length = n) (more : rest ≠ []) :
    isLongerThan n (s ++ rest) = true := by
  rw [isLongerThan, ← length, List.drop_left]
  cases rest with
  | nil => exact absurd rfl more
  | cons => rfl

/-- A character is no half of a surrogate pair. -/
theorem not_half (c : Char) : isHighHalf c.toNat = false ∧ isLowHalf c.toNat = false := by
  have valid : c.toNat < 0xd800 ∨ 0xdfff < c.toNat ∧ c.toNat < 0x110000 := c.valid
  rw [isHighHalf, isLowHalf]
  constructor <;> simp <;> omega

theorem unitChar_toNat (c : Char) : unitChar c.toNat = c := by
  obtain ⟨high, low⟩ := not_half c
  rw [unitChar, high, low, if_neg (by simp), Char.ofNat_toNat]

/-- The number of a code unit stands for its character. -/
theorem readUnicodeEscape_unit (below : c.toNat < 0x10000) (more : rest ≠ []) :
    readUnicodeEscape (Text.hexPadded 4 c.toNat ++ rest) = .ok (c, 4) := by
  have long : isLongerThan unitWidth (Text.hexPadded 4 c.toNat ++ rest) = true :=
    isLongerThan_append (Numeral.length_hexPadded 4 c.toNat) more
  rw [readUnicodeEscape, long, readHex4?_hexPadded below]
  simp only [(not_half c).1, Bool.false_and, Bool.not_true, Bool.false_eq_true, if_false,
    unitChar_toNat]
  rfl

/-- The numbers of the two halves of a surrogate pair stand for its character. -/
theorem readUnicodeEscape_pair {high low : Nat} (first : isHighHalf high = true)
    (second : isLowHalf low = true)
    (together : 0x10000 + (high - 0xd800) * 0x400 + (low - 0xdc00) = c.toNat) (more : rest ≠ []) :
    readUnicodeEscape (Text.hexPadded 4 high ++ (unitEscape low ++ rest)) = .ok (c, 10) := by
  have below : high < 0x10000 ∧ low < 0x10000 := by
    rw [isHighHalf, Bool.and_eq_true, decide_eq_true_eq, decide_eq_true_eq] at first
    rw [isLowHalf, Bool.and_eq_true, decide_eq_true_eq, decide_eq_true_eq] at second
    omega
  have long : isLongerThan unitWidth (Text.hexPadded 4 high ++ (unitEscape low ++ rest)) = true :=
    isLongerThan_append (Numeral.length_hexPadded 4 high) (by simp [unitEscape])
  have longer : isLongerThan escapeWidth (unitEscape low ++ rest) = true :=
    isLongerThan_append (by rw [unitEscape, List.length_cons, List.length_cons,
      Numeral.length_hexPadded]; rfl) more
  rw [readUnicodeEscape, long, readHex4?_hexPadded below.1]
  simp only [first, longer, Bool.and_true, Bool.not_true, Bool.false_eq_true, if_false]
  simp only [unitEscape, List.cons_append, readHex4?_hexPadded below.2, second, if_true, together,
    Char.ofNat_toNat]
  rfl

/-! ### Characters of a string -/

/-- What belongs to an escape that has been read is passed over. -/
theorem readStringFrom_skip (start done taken s : List Char) :
    readStringFrom start taken.length done (taken ++ s) = readStringFrom start 0 done s := by
  induction taken with
  | nil => rfl
  | cons c taken ih => exact ih

theorem readStringFrom_plain (quote : c ≠ '"') (backslash : c ≠ '\\') (low : 0x20 ≤ c.toNat) :
    readStringFrom start 0 done (c :: s) = readStringFrom start 0 (c :: done) s := by
  rw [readStringFrom.eq_def]
  dsimp only
  rw [if_neg quote, if_neg backslash, if_neg (Nat.not_lt.2 low)]

theorem readStringFrom_letter (letter : escaped? e = some c) :
    readStringFrom start 0 done ('\\' :: e :: s) = readStringFrom start 0 (c :: done) s := by
  have notNumbered : e ≠ 'u' := by
    rintro rfl
    have nothing : escaped? 'u' = none := rfl
    exact absurd (nothing.symm.trans letter) (by simp)
  rw [readStringFrom.eq_5 _ _ _ _ _ notNumbered, if_neg (by decide), if_pos rfl, letter]
  exact readStringFrom_skip start (c :: done) [e] s

theorem readStringFrom_numbered (digits : List Char)
    (number : readUnicodeEscape (digits ++ s) = .ok (c, digits.length)) :
    readStringFrom start 0 done ('\\' :: 'u' :: digits ++ s) =
      readStringFrom start 0 (c :: done) s := by
  have skip := readStringFrom_skip start (c :: done) ('u' :: digits) s
  rw [List.length_cons, Nat.add_comm] at skip
  rw [List.cons_append, List.cons_append, readStringFrom.eq_4, if_neg (by decide), if_pos rfl,
    number]
  exact skip

/-! ### How characters are escaped -/

/-- The visible characters of ASCII and the space. -/
def isVisible (c : Char) : Bool := 0x20 ≤ c.toNat && c.toNat < 0x7f

/-- The ways in which a character may stand in a string. -/
inductive StandsAs : Char → List Char → Prop
  /-- For itself. -/
  | plain {c : Char} (quote : c ≠ '"') (backslash : c ≠ '\\') (visible : isVisible c = true) :
    StandsAs c [c]
  /-- As a letter after a backslash. -/
  | letter {c e : Char} (letter : escaped? e = some c) (visible : isVisible e = true) :
    StandsAs c ['\\', e]
  /-- As the number of its code unit. -/
  | unit {c : Char} (below : c.toNat < 0x10000) : StandsAs c (unitEscape c.toNat)
  /-- As the numbers of the halves of a surrogate pair. -/
  | pair {c : Char} {high low : Nat} (first : isHighHalf high = true)
    (second : isLowHalf low = true)
    (together : 0x10000 + (high - 0xd800) * 0x400 + (low - 0xdc00) = c.toNat) :
    StandsAs c (unitEscape high ++ unitEscape low)

/-- Beyond the sixteen bits of a code unit a character is split into two halves. -/
theorem standsAs_pair (above : 0x10000 ≤ c.toNat) :
    StandsAs c (unitEscape (0xd800 + (c.toNat - 0x10000) / 0x400) ++
      unitEscape (0xdc00 + (c.toNat - 0x10000) % 0x400)) := by
  have valid : c.toNat < 0xd800 ∨ 0xdfff < c.toNat ∧ c.toNat < 0x110000 := c.valid
  apply StandsAs.pair
  · rw [isHighHalf, Bool.and_eq_true, decide_eq_true_eq, decide_eq_true_eq]
    omega
  · rw [isLowHalf, Bool.and_eq_true, decide_eq_true_eq, decide_eq_true_eq]
    omega
  · omega

theorem standsAs_escapeChar (c : Char) : StandsAs c (escapeChar c) := by
  unfold escapeChar
  dsimp only
  split_ifs with mark feed ret tab back form visible below
  · rcases mark with rfl | rfl <;> exact .letter rfl rfl
  · exact feed ▸ .letter rfl rfl
  · exact ret ▸ .letter rfl rfl
  · exact tab ▸ .letter rfl rfl
  · have same : c = '\x08' := Char.toNat_inj.1 back
    exact same ▸ .letter rfl rfl
  · have same : c = '\x0c' := Char.toNat_inj.1 form
    exact same ▸ .letter rfl rfl
  · rw [not_or] at mark
    exact .plain mark.1 mark.2 (by simpa [isVisible] using visible)
  · exact .unit below
  · exact standsAs_pair (Nat.not_lt.1 below)

theorem isVisible_of_mem_unitEscape (mem : e ∈ unitEscape n) : isVisible e = true := by
  rw [unitEscape, List.mem_cons, List.mem_cons] at mem
  rcases mem with rfl | rfl | digit
  · rfl
  · rfl
  · obtain ⟨d, below, rfl⟩ := Numeral.mem_hexPadded digit
    have range := Numeral.toNat_of_isDigit
      (Numeral.isDigit_digitChar .hexadecimal below)
    rw [isVisible, Bool.and_eq_true, decide_eq_true_eq, decide_eq_true_eq]
    omega

theorem StandsAs.isVisible (h : StandsAs c s) (mem : e ∈ s) : isVisible e = true := by
  cases h with
  | plain _ _ visible => exact List.mem_singleton.1 mem ▸ visible
  | letter _ visible =>
    rcases List.mem_cons.1 mem with rfl | mem
    · rfl
    · exact List.mem_singleton.1 mem ▸ visible
  | unit => exact isVisible_of_mem_unitEscape mem
  | pair =>
    rcases List.mem_append.1 mem with mem | mem <;> exact isVisible_of_mem_unitEscape mem

/-! ### Strings -/

/-- The reader takes a character off the front of a string, however it stands there. -/
theorem StandsAs.readStringFrom (h : StandsAs c s) (more : rest ≠ []) :
    readStringFrom start 0 done (s ++ rest) = readStringFrom start 0 (c :: done) rest := by
  cases h with
  | plain quote backslash visible =>
    rw [Json.isVisible, Bool.and_eq_true, decide_eq_true_eq] at visible
    exact readStringFrom_plain quote backslash visible.1
  | letter letter => exact readStringFrom_letter letter
  | unit below =>
    apply readStringFrom_numbered _
    rw [readUnicodeEscape_unit below more, Numeral.length_hexPadded]
  | @pair high low first second together =>
    -- the second escape belongs to what is passed over after the first
    have number := readUnicodeEscape_pair first second together more
    rw [← List.append_assoc] at number
    apply readStringFrom_numbered (Text.hexPadded 4 high ++ unitEscape low)
    rw [number, List.length_append, unitEscape, List.length_cons, List.length_cons,
      Numeral.length_hexPadded, Numeral.length_hexPadded]

/-- A written string reads back. -/
theorem readString_writeString (t : String) :
    readString start (t.toList.flatMap escapeChar ++ '"' :: rest) = .ok (t, rest) := by
  -- by induction on what is left of the string, whatever has been read of it
  have run : ∀ done, readStringFrom start 0 done (t.toList.flatMap escapeChar ++ '"' :: rest) =
      .ok (String.ofList (done.reverse ++ t.toList), rest) := by
    generalize t.toList = chars
    induction chars with
    | nil =>
      intro done
      rw [List.flatMap_nil, List.nil_append, List.append_nil, readStringFrom.eq_def]
      rfl
    | cons c chars ih =>
      intro done
      rw [List.flatMap_cons, List.append_assoc,
        (standsAs_escapeChar c).readStringFrom (by simp), ih,
        List.reverse_cons, List.append_assoc, List.singleton_append]
  rw [readString, run, List.reverse_nil, List.nil_append, String.ofList_toList]

/-- A string is written in visible ASCII and spaces. -/
theorem isVisible_of_mem_writeString {t : String} (mem : c ∈ writeString t) :
    isVisible c = true := by
  rw [writeString, List.cons_append, List.mem_cons, List.mem_append, List.mem_singleton] at mem
  rcases mem with rfl | inside | rfl
  · rfl
  · obtain ⟨d, -, mem⟩ := List.mem_flatMap.1 inside
    exact (standsAs_escapeChar d).isVisible mem
  · rfl

end PackPlan.Json
