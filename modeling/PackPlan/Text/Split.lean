/-!
# Splitting and joining

Text cut at every occurrence of a separator, and pieces joined again.

## Main definitions

* `Text.splitAt` — the pieces between the occurrences of a separator
* `Text.join` — pieces with a separator between neighbours

## Main results

* `join_splitAt` — joining the pieces gives the text back
-/

namespace PackPlan.Text

/-- One more character in front of the first piece. -/
def consPiece (c : Char) : List (List Char) → List (List Char)
  | [] => [[c]]
  | piece :: pieces => (c :: piece) :: pieces

/-- The pieces of a text between the occurrences of a separator; there is one piece
more than there are separators. -/
def splitAt (sep : Char) (s : List Char) : List (List Char) :=
  s.foldr (fun c pieces => if c = sep then [] :: pieces else consPiece c pieces) [[]]

/-- The pieces with a separator between neighbours. -/
def join (sep : List Char) (pieces : List (List Char)) : List Char := sep.intercalate pieces

@[simp] theorem splitAt_nil (sep : Char) : splitAt sep [] = [[]] := rfl

theorem splitAt_cons (sep c : Char) (s : List Char) :
    splitAt sep (c :: s) = if c = sep then [] :: splitAt sep s else consPiece c (splitAt sep s) :=
  rfl

theorem splitAt_ne_nil (sep : Char) (s : List Char) : splitAt sep s ≠ [] := by
  induction s with
  | nil => simp
  | cons c s ih =>
    rw [splitAt_cons]
    split
    · simp
    · cases h : splitAt sep s <;> simp [consPiece]

/-- Joining the pieces gives the text back. -/
theorem join_splitAt (sep : Char) (s : List Char) : join [sep] (splitAt sep s) = s := by
  induction s with
  | nil => rfl
  | cons c s ih =>
    rw [splitAt_cons]
    obtain ⟨piece, pieces, h⟩ := List.exists_cons_of_ne_nil (splitAt_ne_nil sep s)
    rw [h] at ih ⊢
    split
    · next hc => rw [join, List.intercalate_cons_cons, ← join, ih, hc]; rfl
    · rw [← ih]
      cases pieces <;> simp [join, consPiece, List.intercalate_cons_cons]

end PackPlan.Text
