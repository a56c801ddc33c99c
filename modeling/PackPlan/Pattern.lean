/-!
# Wildcard patterns

Patterns with `*` for any text, `?` for any character and `[...]` for one character of
a set. They see no structure in the text they match: a slash or a line end is a
character like any other.

## Main definitions

* `Pattern.Token` — what a pattern asks for, piece by piece
* `Pattern.read` — the tokens of a pattern
* `Pattern.holds` — whether a text has the form of a pattern
* `Pattern.isWildcard` — whether a text is meant for a pattern
* `Pattern.escape` — the pattern that only one text matches
-/

namespace PackPlan.Pattern

/-- What a pattern asks for. -/
inductive Token
  /-- Any text. -/
  | star
  /-- Any character. -/
  | any
  /-- One particular character. -/
  | exactly (c : Char)
  /-- A character in one of the ranges, or one in none of them. -/
  | oneOf (negated : Bool) (ranges : List (Char × Char))
  deriving DecidableEq, Repr

/-! ### Sets -/

/-- The text of a set from after its opening bracket to its closing bracket, and what
follows. A closing bracket in front, or after a leading `!`, does not close. -/
def takeSet? (s : List Char) : Option (List Char × List Char) :=
  let (mark, s) := match s with
    | '!' :: s => (['!'], s)
    | s => ([], s)
  let (bracket, s) := match s with
    | ']' :: s => ([']'], s)
    | s => ([], s)
  match s.span (· ≠ ']') with
  | (_, []) => none
  | (inside, _ :: rest) => some (mark ++ bracket ++ inside, rest)

/-- A set cut at the hyphens that denote ranges. A hyphen denotes a range when at least
`need` characters stand between it and the one before, and something follows it. The
piece being read is in reverse. -/
def cutRangesFrom : (need : Nat) → (piece : List Char) → List Char → List (List Char)
  | _, piece, [] => [piece.reverse]
  | need, piece, c :: s =>
    if c = '-' ∧ need = 0 then
      -- a hyphen at the end stands for itself
      if s = [] then [(c :: piece).reverse] else piece.reverse :: cutRangesFrom 2 [] s
    else cutRangesFrom (need - 1) (c :: piece) s

/-- A set cut at the hyphens that denote ranges. -/
def cutRanges (s : List Char) : List (List Char) :=
  cutRangesFrom (if s.head? = some '!' then 2 else 1) [] s

/-- The pieces with every range taken out whose first character comes after its last. -/
def dropReversed (pieces : List (List Char)) : List (List Char) :=
  pieces.foldr (fun piece later =>
    match later with
    | [] => [piece]
    | next :: rest =>
      match piece.getLast?, next.head? with
      | some low, some high =>
        -- the two pieces grow together, without the characters of the range
        if high < low then (piece.dropLast ++ next.drop 1) :: rest else piece :: next :: rest
      | _, _ => piece :: next :: rest) []

/-- The characters of the pieces, with a gap where a hyphen denotes a range. -/
def marked (pieces : List (List Char)) : List (Option Char) :=
  [none].intercalate (pieces.map (·.map some))

/-- The ranges that marked characters denote, a single character being a range of one. -/
def rangesOf : List (Option Char) → List (Char × Char)
  | some low :: none :: some high :: rest => (low, high) :: rangesOf rest
  | some c :: rest => (c, c) :: rangesOf rest
  | none :: rest => ('-', '-') :: rangesOf rest
  | [] => []

/-- The token of a set. A set that lost all its characters matches nothing; with only
the mark of negation left it matches anything. -/
def setToken (s : List Char) : Token :=
  match marked (dropReversed (cutRanges s)) with
  | [some '!'] => .any
  | some '!' :: inside => .oneOf true (rangesOf inside)
  | inside => .oneOf false (rangesOf inside)

/-! ### Patterns -/

/-- The tokens of a pattern; `skip` counts the characters that belong to a token
already read. -/
def readFrom : (skip : Nat) → List Char → List Token
  | _, [] => []
  | skip + 1, _ :: s => readFrom skip s
  | 0, c :: s =>
    if c = '*' then .star :: readFrom 0 s
    else if c = '?' then .any :: readFrom 0 s
    else if c = '[' then
      match takeSet? s with
      | some (inside, _) => setToken inside :: readFrom (inside.length + 1) s
      | none => .exactly c :: readFrom 0 s
    else .exactly c :: readFrom 0 s

/-- The tokens of a pattern. A bracket that is not closed stands for itself. -/
def read (pattern : List Char) : List Token := readFrom 0 pattern

/-- Whether a token that asks for one character is content with a given one. -/
def Token.admits : Token → Char → Bool
  | .star, _ => false
  | .any, _ => true
  | .exactly d, c => c = d
  | .oneOf negated ranges, c => negated != ranges.any fun r => r.1 ≤ c && c ≤ r.2

/-- For every end of a text, whether a token followed by more matches it, given for
every end whether the rest of the pattern does. -/
def Token.extend (text : List Char) (token : Token) (ends : List Bool) : List Bool :=
  match token with
  | .star => ends.foldr (fun b later => (b || later.headD false) :: later) []
  | token => List.zipWith (fun c b => token.admits c && b) text (ends.drop 1) ++ [false]

/-- Whether tokens match a text. -/
def matchesTokens (tokens : List Token) (text : List Char) : Bool :=
  (tokens.foldr (Token.extend text) (text.map (fun _ => false) ++ [true])).headD false

/-- Whether a text has the form of a pattern. -/
def holds (pattern text : List Char) : Bool := matchesTokens (read pattern) text

/-- A text with a star or a question mark is meant for a pattern. -/
def isWildcard (pattern : String) : Bool := pattern.toList.any fun c => c = '*' || c = '?'

/-- The pattern that only one text matches. -/
def escape (s : List Char) : List Char :=
  s.flatMap fun c => if c = '*' ∨ c = '?' ∨ c = '[' then ['[', c, ']'] else [c]

end PackPlan.Pattern
