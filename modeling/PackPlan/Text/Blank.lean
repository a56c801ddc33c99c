import PackPlan.Text.CharSet

/-!
# Blanks and trimming

A blank is a space in the sense of Unicode: the separators, the tabulators and
line ends, the four information separators and the next-line control.

## Main definitions

* `Text.isBlank` — the blank characters
* `Text.trimBy`, `Text.trim` — text without what surrounds it
-/

namespace PackPlan.Text

/-- The characters that count as blank. -/
def blanks : CharSet :=
  ⟨[(0x9, 0xd), (0x1c, 0x20), (0x85, 0x85), (0xa0, 0xa0), (0x1680, 0x1680), (0x2000, 0x200a),
    (0x2028, 0x2029), (0x202f, 0x202f), (0x205f, 0x205f), (0x3000, 0x3000)]⟩

/-- Whether a character is blank. -/
def isBlank (c : Char) : Bool := blanks.contains c

/-- The text without the characters of a class at its two ends. -/
def trimBy (drop : Char → Bool) (s : List Char) : List Char :=
  ((s.dropWhile drop).reverse.dropWhile drop).reverse

/-- The text without the blanks at its two ends. -/
def trim (s : List Char) : List Char := trimBy isBlank s

end PackPlan.Text
