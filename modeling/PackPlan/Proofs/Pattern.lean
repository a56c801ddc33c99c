import PackPlan.Pattern

/-!
# What patterns match

A pattern is matched token by token. A literal text matches itself only, also where it is written
with its special characters in sets; a star matches any text.

## Main definitions

* `Pattern.literalToken` — the token of a character that stands for itself

## Main results

* `Pattern.matchesTokens_star`, `Pattern.matchesTokens_single` — one token before others
* `Pattern.read_escape_append` — the tokens of a text that stands for itself
* `Pattern.holds_between` — a literal text, a star, and a literal text
-/

namespace PackPlan.Pattern

variable {tokens : List Token} {token : Token} {c d : Char} {s text front back : List Char}

/-! ### Tokens -/

/-- For every end of a text, whether tokens match it. -/
def ends (tokens : List Token) (text : List Char) : List Bool :=
  tokens.foldr (Token.extend text) (text.map (fun _ => false) ++ [true])

theorem matchesTokens_eq (tokens : List Token) (text : List Char) :
    matchesTokens tokens text = (ends tokens text).headD false := rfl

theorem length_extend (token : Token) {bs : List Bool} (length : bs.length = text.length + 1) :
    (token.extend text bs).length = text.length + 1 := by
  have single : ∀ f : Char → Bool → Bool,
      (List.zipWith f text (bs.drop 1) ++ [false]).length = text.length + 1 := by
    intro f
    rw [List.length_append, List.length_zipWith, List.length_drop, length]
    exact congrArg (· + 1) (Nat.min_self _)
  cases token with
  | star =>
    rw [← length]
    clear length single
    induction bs with
    | nil => rfl
    | cons b bs ih => exact congrArg (· + 1) ih
  | any => exact single _
  | exactly c => exact single _
  | oneOf negated ranges => exact single _

theorem length_ends (tokens : List Token) (text : List Char) :
    (ends tokens text).length = text.length + 1 := by
  induction tokens with
  | nil => rw [ends, List.foldr_nil, List.length_append, List.length_map, List.length_singleton]
  | cons token tokens ih => exact length_extend token ih

theorem ends_ne_nil (tokens : List Token) (text : List Char) : ends tokens text ≠ [] := by
  intro empty
  have length := length_ends tokens text
  rw [empty] at length
  cases length

/-- Whether tokens match the ends of a text does not depend on what stands before. -/
theorem ends_cons (tokens : List Token) (c : Char) (text : List Char) :
    ends tokens (c :: text) = matchesTokens tokens (c :: text) :: ends tokens text := by
  induction tokens with
  | nil => rfl
  | cons token tokens ih =>
    obtain ⟨b, bs, split⟩ := List.exists_cons_of_ne_nil (ends_ne_nil tokens text)
    change token.extend (c :: text) (ends tokens (c :: text)) =
      (token.extend (c :: text) (ends tokens (c :: text))).headD false ::
        token.extend text (ends tokens text)
    rw [ih, split]
    cases token <;> rfl

theorem matchesTokens_nil (text : List Char) : matchesTokens [] text = text.isEmpty := by
  cases text <;> rfl

theorem matchesTokens_nil_text (single : token ≠ .star) :
    matchesTokens (token :: tokens) [] = false := by
  cases token with
  | star => exact absurd rfl single
  | any => rfl
  | exactly c => rfl
  | oneOf negated ranges => rfl

/-- A token that asks for one character. -/
theorem matchesTokens_single (single : token ≠ .star) (c : Char) (text : List Char) :
    matchesTokens (token :: tokens) (c :: text) =
      (token.admits c && matchesTokens tokens text) := by
  obtain ⟨b, bs, split⟩ := List.exists_cons_of_ne_nil (ends_ne_nil tokens text)
  change (token.extend (c :: text) (ends tokens (c :: text))).headD false = _
  rw [ends_cons, matchesTokens_eq tokens text, split]
  cases token with
  | star => exact absurd rfl single
  | any => rfl
  | exactly d => rfl
  | oneOf negated ranges => rfl

theorem matchesTokens_star_cons (c : Char) (text : List Char) :
    matchesTokens (.star :: tokens) (c :: text) =
      (matchesTokens tokens (c :: text) || matchesTokens (.star :: tokens) text) := by
  obtain ⟨b, bs, split⟩ := List.exists_cons_of_ne_nil (ends_ne_nil tokens text)
  change (Token.star.extend (c :: text) (ends tokens (c :: text))).headD false =
    (matchesTokens tokens (c :: text) || (Token.star.extend text (ends tokens text)).headD false)
  rw [ends_cons, split]
  rfl

/-- A star matches any text. -/
theorem matchesTokens_star :
    matchesTokens (.star :: tokens) text = true ↔
      ∃ front back, text = front ++ back ∧ matchesTokens tokens back = true := by
  induction text with
  | nil =>
    have empty : matchesTokens (.star :: tokens) [] = matchesTokens tokens [] := by
      -- the empty text has one end only
      obtain ⟨b, only⟩ := List.length_eq_one_iff.1 (length_ends tokens [])
      change (Token.star.extend [] (ends tokens [])).headD false = (ends tokens []).headD false
      rw [only]
      exact Bool.or_false b
    rw [empty]
    constructor
    · exact fun holds => ⟨[], [], rfl, holds⟩
    · rintro ⟨front, back, split, holds⟩
      rwa [(List.append_eq_nil_iff.1 split.symm).2] at holds
  | cons c text ih =>
    rw [matchesTokens_star_cons, Bool.or_eq_true, ih]
    constructor
    · rintro (here | ⟨front, back, rfl, later⟩)
      · exact ⟨[], c :: text, rfl, here⟩
      · exact ⟨c :: front, back, rfl, later⟩
    · rintro ⟨front, back, split, holds⟩
      cases front with
      | nil =>
        rw [List.nil_append] at split
        exact .inl (split ▸ holds)
      | cons d front =>
        rw [List.cons_append, List.cons.injEq] at split
        exact .inr ⟨front, back, split.2, holds⟩

/-! ### Characters that stand for themselves -/

/-- Whether a character is special in a pattern. -/
def isSpecial (c : Char) : Bool := c = '*' || c = '?' || c = '['

/-- The token of a character that stands for itself, which is in a set if it is special. -/
def literalToken (c : Char) : Token :=
  if isSpecial c then .oneOf false [(c, c)] else .exactly c

theorem literalToken_ne_star (c : Char) : literalToken c ≠ .star := by
  rw [literalToken]
  split <;> exact nofun

/-- A literal character matches itself and no other. -/
theorem admits_literalToken (c d : Char) : (literalToken c).admits d = true ↔ d = c := by
  rw [literalToken]
  split
  · simp only [Token.admits, List.any_cons, List.any_nil, Bool.or_false, Bool.false_bne,
      Bool.and_eq_true, decide_eq_true_eq]
    constructor
    · rintro ⟨above, below⟩
      exact Char.le_antisymm below above
    · rintro rfl
      exact ⟨Char.le_refl d, Char.le_refl d⟩
  · exact decide_eq_true_iff

/-- Literal characters match their text. -/
theorem matchesTokens_literal_append (s : List Char) :
    matchesTokens (s.map literalToken ++ tokens) text = true ↔
      ∃ back, text = s ++ back ∧ matchesTokens tokens back = true := by
  induction s generalizing text with
  | nil => exact ⟨fun holds => ⟨text, rfl, holds⟩, fun ⟨_, split, holds⟩ => split ▸ holds⟩
  | cons c s ih =>
    rw [List.map_cons, List.cons_append]
    cases text with
    | nil =>
      rw [matchesTokens_nil_text (literalToken_ne_star c)]
      exact iff_of_false Bool.false_ne_true nofun
    | cons d text =>
      rw [matchesTokens_single (literalToken_ne_star c), Bool.and_eq_true, admits_literalToken, ih]
      constructor
      · rintro ⟨rfl, back, rfl, holds⟩
        exact ⟨back, rfl, holds⟩
      · rintro ⟨back, split, holds⟩
        obtain ⟨rfl, rfl⟩ := List.cons.inj split
        exact ⟨rfl, back, rfl, holds⟩

theorem matchesTokens_literal (s : List Char) :
    matchesTokens (s.map literalToken) text = true ↔ text = s := by
  rw [← List.append_nil (s.map literalToken), matchesTokens_literal_append]
  constructor
  · rintro ⟨back, rfl, none⟩
    rw [matchesTokens_nil, List.isEmpty_iff] at none
    rw [none, List.append_nil]
  · rintro rfl
    exact ⟨[], (List.append_nil _).symm, rfl⟩

/-! ### Patterns -/

theorem read_cons_star (s : List Char) : read ('*' :: s) = .star :: read s := rfl

theorem read_cons_plain (plain : isSpecial c = false) (s : List Char) :
    read (c :: s) = literalToken c :: read s := by
  rw [literalToken, plain]
  simp only [isSpecial, Bool.or_eq_false_iff, decide_eq_false_iff_not] at plain
  rw [read, readFrom, if_neg plain.1.1, if_neg plain.1.2, if_neg plain.2]
  rfl

/-- A special character in a set stands for itself. -/
theorem read_cons_set (special : isSpecial c = true) (s : List Char) :
    read ('[' :: c :: ']' :: s) = literalToken c :: read s := by
  rw [literalToken, special]
  simp only [isSpecial, Bool.or_eq_true, decide_eq_true_eq] at special
  rcases special with (rfl | rfl) | rfl <;> rfl

theorem read_plain (plain : ∀ c ∈ s, isSpecial c = false) : read s = s.map literalToken := by
  induction s with
  | nil => rfl
  | cons c s ih =>
    rw [List.forall_mem_cons] at plain
    rw [read_cons_plain plain.1, ih plain.2, List.map_cons]

theorem escape_cons (c : Char) (s : List Char) :
    escape (c :: s) = (if isSpecial c then ['[', c, ']'] else [c]) ++ escape s := by
  rw [escape, List.flatMap_cons, ← escape]
  by_cases special : isSpecial c = true
  · rw [if_pos special, if_pos (by simpa [isSpecial, or_assoc] using special)]
  · rw [if_neg special, if_neg (by simpa [isSpecial, not_or, and_assoc] using special)]

/-- A text that is written so as to stand for itself does so. -/
theorem read_escape_append (s rest : List Char) :
    read (escape s ++ rest) = s.map literalToken ++ read rest := by
  induction s with
  | nil => rfl
  | cons c s ih =>
    rw [escape_cons, List.map_cons, List.cons_append, ← ih]
    split
    · next special => exact read_cons_set special _
    · next plain => exact read_cons_plain (Bool.eq_false_iff.2 plain) _

/-- A text that begins and ends as given, the two parts not overlapping. -/
theorem holds_between (front : List Char) (plain : ∀ c ∈ back, isSpecial c = false) :
    holds (escape front ++ '*' :: back) text = true ↔
      ∃ middle, text = front ++ (middle ++ back) := by
  rw [holds, read_escape_append, read_cons_star, read_plain plain, matchesTokens_literal_append]
  constructor
  · rintro ⟨rest, rfl, starred⟩
    obtain ⟨middle, last, rfl, literal⟩ := matchesTokens_star.1 starred
    exact ⟨middle, by rw [(matchesTokens_literal back).1 literal]⟩
  · rintro ⟨middle, rfl⟩
    exact ⟨_, rfl, matchesTokens_star.2 ⟨middle, back, rfl, (matchesTokens_literal back).2 rfl⟩⟩

end PackPlan.Pattern
