import Hyperscript.Text.Blank

namespace Hyperscript.Text

/-- The pieces of a text between the characters that satisfy `cut`. There is one piece more than there
are cuts, so a text without a cut, the empty one too, is a single piece. -/
def pieces (cut : Char → Bool) : List Char → List (List Char)
  | [] => [[]]
  | c :: rest =>
    if cut c then [] :: pieces cut rest else (pieces cut rest).modifyHead (c :: ·)

theorem pieces_ne_nil (cut : Char → Bool) (text : List Char) : pieces cut text ≠ [] := by
  induction text with
  | nil => simp [pieces]
  | cons c rest ih =>
    simp only [pieces]
    split
    · simp
    · simpa using ih

/-- The maximal runs without blanks. -/
def words (text : List Char) : List (List Char) :=
  (pieces isBlank text).filter fun piece => !piece.isEmpty

end Hyperscript.Text
