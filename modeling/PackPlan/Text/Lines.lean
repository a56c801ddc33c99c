/-!
# Line ends

A line ends at a line feed, at a carriage return, or at the two together.

## Main definitions

* `Text.unifyLines` — every line end written as one line feed
* `Text.linesOf` — the lines of a text with their ends, and what follows the last end
-/

namespace PackPlan.Text

/-- Every line end as one line feed; `returned` tells that a carriage return came
just before. -/
def unifyLinesFrom (returned : Bool) : List Char → List Char
  | [] => []
  | c :: s =>
    if c = '\r' then '\n' :: unifyLinesFrom true s
    else if c = '\n' ∧ returned then unifyLinesFrom false s
    else c :: unifyLinesFrom false s

/-- Every line end written as one line feed. -/
def unifyLines (s : List Char) : List Char := unifyLinesFrom false s

/-- The lines of a text with their ends, and the text after the last line end. The
line being read is held in reverse; a carriage return ends it once the next character
is known not to be the line feed that belongs to it. -/
def linesFrom : (line : List Char) → (returned : Bool) → List Char → List (List Char) × List Char
  | line, _, [] => ([], line.reverse)
  | line, returned, c :: s =>
    if returned then
      if c = '\n' then
        let (lines, rest) := linesFrom [] false s
        ((c :: line).reverse :: lines, rest)
      else
        let (lines, rest) := linesFrom [c] (c = '\r') s
        (line.reverse :: lines, rest)
    else if c = '\n' then
      let (lines, rest) := linesFrom [] false s
      ((c :: line).reverse :: lines, rest)
    else linesFrom (c :: line) (c = '\r') s

/-- The lines of a text with their ends, and the text after the last line end that is
known to be whole. A carriage return at the very end of the text belongs to that rest. -/
def linesOf (s : List Char) : List (List Char) × List Char := linesFrom [] false s

end PackPlan.Text
