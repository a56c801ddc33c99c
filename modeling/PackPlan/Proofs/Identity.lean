import Mathlib.Data.List.Basic
import PackPlan.AssetId
import PackPlan.Proofs.Numeral.ReadBack

/-!
# Written guids read back

The written form of a guid is one of many spellings of it. Its braces and hyphens are taken
away again, none of the words that may stand in a spelling occurs in it, and its digits are
those of the number.

## Main results

* `Guid.read?_text` — the written form of a guid reads back
* `AssetId.make_text` — an id is made from the written form of its guid
* `AssetId.read_text` — the written form of an id reads back
* `AssetId.eq_of_text` — distinct ids have distinct texts
-/

namespace PackPlan

/-! ### Text without marks -/

namespace Text

variable {drop : Char → Bool} {c d : Char} {s : List Char} {pieces : List (List Char)}

theorem dropWhile_eq_self (kept : ∀ c ∈ s, drop c = false) : s.dropWhile drop = s := by
  rw [List.dropWhile_eq_self_iff]
  intro nonempty
  rw [kept s[0] (List.getElem_mem nonempty)]
  simp

theorem trimBy_eq_self (kept : ∀ c ∈ s, drop c = false) : trimBy drop s = s := by
  have backwards : ∀ c ∈ s.reverse, drop c = false := fun c mem => kept c (List.mem_reverse.1 mem)
  rw [trimBy, dropWhile_eq_self kept, dropWhile_eq_self backwards, List.reverse_reverse]

theorem trimBy_surrounded (opening : drop c = true) (closing : drop d = true)
    (kept : ∀ c ∈ s, drop c = false) : trimBy drop (c :: (s ++ [d])) = s := by
  rw [trimBy, List.dropWhile_cons_of_pos opening]
  cases s with
  | nil => rw [List.nil_append, List.dropWhile_cons_of_pos closing]; rfl
  | cons x s =>
    have front : (x :: s ++ [d]).dropWhile drop = x :: s ++ [d] := by
      rw [List.cons_append, List.dropWhile_cons_of_neg (by rw [kept x (by simp)]; simp)]
    have backwards : ∀ c ∈ (x :: s).reverse, drop c = false :=
      fun c mem => kept c (List.mem_reverse.1 mem)
    rw [front, List.reverse_append, List.reverse_singleton, List.singleton_append,
      List.dropWhile_cons_of_pos closing, dropWhile_eq_self backwards, List.reverse_reverse]

theorem mem_join {sep : List Char} (mem : c ∈ join sep pieces) : c ∈ sep ∨ c ∈ pieces.flatten := by
  induction pieces with
  | nil => exact absurd mem (by simp [join])
  | cons piece pieces ih =>
    cases pieces with
    | nil => exact Or.inr (by simpa [join] using mem)
    | cons next pieces =>
      rw [join, List.intercalate_cons_cons, List.append_assoc, List.mem_append,
        List.mem_append] at mem
      rw [List.flatten_cons, List.mem_append]
      rcases mem with piece | sep | later
      · exact Or.inr (Or.inl piece)
      · exact Or.inl sep
      · exact (ih later).imp_right Or.inr

/-- Without the separators the pieces stand side by side. -/
theorem filter_join (absent : ∀ piece ∈ pieces, d ∉ piece) :
    (join [d] pieces).filter (· ≠ d) = pieces.flatten := by
  have whole : ∀ piece ∈ pieces, piece.filter (· ≠ d) = piece := by
    intro piece mem
    rw [List.filter_eq_self]
    intro c inside
    exact decide_eq_true fun same => absent piece mem (same ▸ inside)
  induction pieces with
  | nil => rfl
  | cons piece pieces ih =>
    have ih := ih (fun p mem => absent p (List.mem_cons_of_mem _ mem))
      fun p mem => whole p (List.mem_cons_of_mem _ mem)
    cases pieces with
    | nil => simpa [join] using whole piece (by simp)
    | cons next pieces =>
      rw [join, List.intercalate_cons_cons, List.filter_append, List.filter_append, ← join, ih,
        whole piece (by simp), List.flatten_cons]
      simp

end Text

/-! ### Hexadecimal digits -/

namespace Numeral

theorem mem_hexPadded {c : Char} {width n : Nat} (mem : c ∈ Text.hexPadded width n) :
    ∃ d < 16, c = d.digitChar := by
  rw [Text.hexPadded, List.mem_map] at mem
  obtain ⟨i, -, rfl⟩ := mem
  exact ⟨_, Nat.mod_lt _ (by decide), rfl⟩

theorem glyphValue?_toUpper {d : Nat} (below : d < 16) :
    Radix.isDigit .hexadecimal d.digitChar.toUpper = true ∧
      glyphValue? d.digitChar.toUpper = some d := by
  revert d
  decide

theorem digitsValue_map_toUpper (width n : Nat) :
    digitsValue .hexadecimal ((Text.hexPadded width n).map Char.toUpper) = n % 16 ^ width := by
  rw [← digitsValue_hexPadded, digitsValue, List.foldl_map]
  refine List.foldl_ext _ _ 0 fun value c mem => ?_
  obtain ⟨d, below, rfl⟩ := mem_hexPadded mem
  obtain ⟨digit, same⟩ := glyphValue?_toUpper below
  have upper : d.digitChar.toUpper ≠ '_' := ne_of_isDigit digit (by decide)
  have lower : d.digitChar ≠ '_' :=
    ne_of_isDigit (isDigit_digitChar .hexadecimal below) (by decide)
  rw [if_neg upper, if_neg lower, same, glyphValue?_digitChar below]

end Numeral

/-! ### Guids -/

namespace Guid

open Numeral

variable {c : Char} {word s : List Char} {g : Guid}

/-- A word whose first character does not occur in a text does not occur there. -/
theorem eraseWord_eq_self (absent : c ∉ s) : eraseWord (c :: word) s = s := by
  rw [eraseWord]
  induction s with
  | nil => rfl
  | cons d s ih =>
    rw [List.mem_cons, not_or] at absent
    rw [eraseWordFrom, if_neg, ih absent.2]
    rw [List.isPrefixOf_cons_cons, beq_false_of_ne absent.1]
    simp

theorem flatten_cut {α : Type} (lengths : List Nat) (s : List α) (whole : s.length = lengths.sum) :
    (cut lengths s).flatten = s := by
  induction lengths generalizing s with
  | nil => exact (List.eq_nil_of_length_eq_zero whole).symm
  | cons n lengths ih =>
    have rest : (s.drop n).length = lengths.sum := by
      rw [List.length_drop, whole, List.sum_cons]
      omega
    rw [cut, List.flatten_cons, ih (s.drop n) rest, List.take_append_drop]

theorem length_digits : g.digits.length = 32 := by
  rw [digits, List.length_map, length_hexPadded]

theorem isDigit_of_mem_digits (mem : c ∈ g.digits) : Radix.isDigit .hexadecimal c = true := by
  obtain ⟨x, member, rfl⟩ := List.mem_map.1 mem
  obtain ⟨d, below, rfl⟩ := mem_hexPadded member
  exact (glyphValue?_toUpper below).1

/-- The digits of a guid with the hyphens between their groups. -/
def grouped (g : Guid) : List Char := Text.join ['-'] (cut groupLengths g.digits)

theorem flatten_groups : (cut groupLengths g.digits).flatten = g.digits :=
  flatten_cut groupLengths g.digits length_digits

theorem mem_grouped (mem : c ∈ g.grouped) : c = '-' ∨ Radix.isDigit .hexadecimal c = true := by
  rcases Text.mem_join mem with hyphen | digit
  · exact Or.inl (List.mem_singleton.1 hyphen)
  · exact Or.inr (isDigit_of_mem_digits (flatten_groups ▸ digit))

theorem ne_of_mem_grouped (mem : c ∈ g.grouped) {d : Char} (hyphen : d ≠ '-')
    (other : d.toNat < 48 ∨ 57 < d.toNat ∧ d.toNat < 65 ∨ 70 < d.toNat ∧ d.toNat < 97 ∨
      102 < d.toNat) : c ≠ d := by
  rcases mem_grouped mem with rfl | digit
  · exact hyphen.symm
  · exact ne_of_isDigit digit other

theorem isBrace_of_mem_grouped (mem : c ∈ g.grouped) : isBrace c = false := by
  have opening : c ≠ '\x7b' := ne_of_mem_grouped mem (by decide) (by decide)
  have closing : c ≠ '\x7d' := ne_of_mem_grouped mem (by decide) (by decide)
  rw [isBrace, decide_eq_false opening, decide_eq_false closing]
  rfl

theorem isBlank_of_visible (low : 0x20 < c.toNat) (high : c.toNat < 0x7f) :
    Text.isBlank c = false := by
  simp only [Text.isBlank, Text.blanks, CharSet.contains, List.any_cons, List.any_nil,
    Bool.or_false, Bool.or_eq_false_iff, Bool.and_eq_false_iff, decide_eq_false_iff_not]
  omega

/-- The characters of which written ids are made. -/
def isPart (c : Char) : Bool := isBrace c || c = '-' || c = ':' || Radix.isDigit .hexadecimal c

theorem isPart_of_isDigit (digit : Radix.isDigit .hexadecimal c = true) : isPart c = true := by
  rw [isPart, digit, Bool.or_true]

theorem isBlank_of_isPart (part : isPart c = true) : Text.isBlank c = false := by
  simp only [isPart, isBrace, Bool.or_eq_true, decide_eq_true_eq] at part
  rcases part with (((rfl | rfl) | rfl) | rfl) | digit
  · decide
  · decide
  · decide
  · decide
  · have := toNat_of_isDigit digit
    exact isBlank_of_visible (by omega) (by omega)

theorem isPart_of_mem_textChars (mem : c ∈ g.textChars) : isPart c = true := by
  rw [textChars, List.cons_append, List.mem_cons, List.mem_append, List.mem_singleton] at mem
  rcases mem with rfl | grouped | rfl
  · decide
  · rcases mem_grouped grouped with rfl | digit
    · decide
    · exact isPart_of_isDigit digit
  · decide

theorem isBlank_of_mem_textChars (mem : c ∈ g.textChars) : Text.isBlank c = false :=
  isBlank_of_isPart (isPart_of_mem_textChars mem)

/-- Of the written form of a guid the digits are left. -/
theorem bareDigits_textChars : bareDigits g.textChars = g.digits := by
  -- both words that are erased begin with a letter that is neither a digit nor a hyphen
  have absent : 'u' ∉ g.grouped := fun mem =>
    ne_of_mem_grouped mem (by decide) (by decide) rfl
  have bare : Text.trimBy isBrace g.textChars = g.grouped :=
    Text.trimBy_surrounded (by decide) (by decide) fun c mem => isBrace_of_mem_grouped mem
  have apart : ∀ piece ∈ cut groupLengths g.digits, '-' ∉ piece := by
    intro piece mem hyphen
    have digit : '-' ∈ g.digits := flatten_groups ▸ List.mem_flatten.2 ⟨piece, mem, hyphen⟩
    exact ne_of_isDigit (isDigit_of_mem_digits digit) (by decide) rfl
  have urn : "urn:".toList = 'u' :: ['r', 'n', ':'] := rfl
  have uuid : "uuid:".toList = 'u' :: ['u', 'i', 'd', ':'] := rfl
  unfold bareDigits
  dsimp only
  rw [bare, urn, uuid, eraseWord_eq_self absent, eraseWord_eq_self absent,
    Text.trimBy_eq_self fun c mem => isBrace_of_mem_grouped mem, grouped, Text.filter_join apart,
    flatten_groups]

theorem ofBareDigits?_digits : ofBareDigits? g.digits = some g := by
  have nonempty : g.digits ≠ [] := by
    rw [← List.length_pos_iff_ne_nil, length_digits]
    decide
  have value : digitsValue .hexadecimal g.digits = g.value := by
    rw [digits, digitsValue_map_toUpper]
    refine Nat.mod_eq_of_lt (Nat.lt_of_lt_of_eq g.value_lt ?_)
    decide
  have number := read_of_digits nonempty (fun c mem => isDigit_of_mem_digits mem) nofun
  rw [ofBareDigits?, if_neg (not_not.2 length_digits), number, value]
  exact dif_pos ⟨Int.natCast_nonneg g.value, g.value_lt⟩

/-- The written form of a guid reads back. -/
theorem read?_text (g : Guid) : read? g.text = some g := by
  have untrimmed : Text.trim g.textChars = g.textChars :=
    Text.trimBy_eq_self fun c mem => isBlank_of_mem_textChars mem
  unfold read?
  dsimp only
  rw [text, String.toList_ofList, untrimmed, bareDigits_textChars, ofBareDigits?_digits]
  rfl

/-- Distinct guids have distinct written forms. -/
theorem eq_of_textChars {h : Guid} (same : g.textChars = h.textChars) : g = h := by
  have again := read?_text h
  rw [text, ← same] at again
  exact Option.some_inj.1 ((read?_text g).symm.trans again)

theorem ne_colon_of_mem_textChars (mem : c ∈ g.textChars) : c ≠ ':' := by
  rw [textChars, List.cons_append, List.mem_cons, List.mem_append, List.mem_singleton] at mem
  rcases mem with rfl | grouped | rfl
  · decide
  · exact ne_of_mem_grouped grouped (by decide) (by decide)
  · decide

end Guid

namespace AssetId

theorem make_text (id : AssetId) : make id.guid.text id.subId = .ok id := by
  rw [make, Guid.read?_text]

/-- There is no colon in a guid, so the first one ends it. -/
theorem takeWhile_text (id : AssetId) :
    id.text.toList.takeWhile (· ≠ ':') = id.guid.textChars ∧
      id.text.toList.dropWhile (· ≠ ':') = ':' :: Numeral.hexText id.subId := by
  have plain : ∀ c ∈ id.guid.textChars, decide (c ≠ ':') = true := fun c mem =>
    decide_eq_true (Guid.ne_colon_of_mem_textChars mem)
  rw [text, String.toList_ofList]
  constructor
  · rw [List.takeWhile_append_of_pos plain, List.takeWhile_cons_of_neg (by simp), List.append_nil]
  · rw [List.dropWhile_append_of_pos plain, List.dropWhile_cons_of_neg (by simp)]

/-- Distinct ids have distinct texts. -/
theorem eq_of_text {a b : AssetId} (same : a.text = b.text) : a = b := by
  have guids : a.guid = b.guid := by
    refine Guid.eq_of_textChars ?_
    rw [← (takeWhile_text a).1, ← (takeWhile_text b).1, same]
  have subIds : a.subId = b.subId := by
    have texts := String.ofList_injective same
    rw [guids, List.append_cancel_left_eq, List.cons_inj_right] at texts
    exact Numeral.eq_of_hexText texts
  cases a
  cases b
  rw [AssetId.mk.injEq]
  exact ⟨guids, subIds⟩

theorem isPart_of_mem_text {id : AssetId} {c : Char} (mem : c ∈ id.text.toList) :
    Guid.isPart c = true := by
  rw [text, String.toList_ofList, List.mem_append, List.mem_cons] at mem
  rcases mem with front | rfl | back
  · exact Guid.isPart_of_mem_textChars front
  · decide
  · rcases Numeral.mem_signed .hexadecimal back with rfl | digit
    · decide
    · exact Guid.isPart_of_isDigit digit

theorem trim_text (id : AssetId) : Text.trim id.text.toList = id.text.toList :=
  Text.trimBy_eq_self fun _ mem => Guid.isBlank_of_isPart (isPart_of_mem_text mem)

/-- The written form of an id reads back, whatever its sub id. -/
theorem read_text (id : AssetId) : read id.text = .ok id := by
  obtain ⟨front, back⟩ := takeWhile_text id
  -- no text at all would be read as zero, but every number has digits
  have subId : readSubId (Numeral.hexText id.subId) = .ok id.subId := by
    rw [readSubId, if_neg, Numeral.read_hexText]
    · rfl
    · rw [List.isEmpty_iff]
      exact Numeral.signed_ne_nil .hexadecimal id.subId
  have made := make_text id
  rw [Guid.text] at made
  unfold read
  dsimp only
  rw [trim_text, front, back, List.drop_succ_cons, List.drop_zero, subId]
  exact (pure_bind id.subId _).trans made

end AssetId

end PackPlan
