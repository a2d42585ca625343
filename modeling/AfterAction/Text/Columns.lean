/-!
Fixed-width columns. A width counts characters, and every operation below counts the same way,
so a cut cell that is then padded fills its column exactly.
-/

namespace AfterAction.Text

/-- A text longer than the width keeps one character less than the width, and `~` marks the cut. -/
def cutChars (width : Nat) (cs : List Char) : List Char :=
  if cs.length ≤ width then cs else cs.take (width - 1) ++ ['~']

def cut (width : Nat) (s : String) : String := .ofList (cutChars width s.toList)

/-- Blanks on the right up to the width; a longer text is left alone. -/
def padRight (width : Nat) (s : String) : String :=
  .ofList (s.toList ++ List.replicate (width - s.toList.length) ' ')

/-- Blanks on the left up to the width; a longer text is left alone. -/
def padLeft (width : Nat) (s : String) : String :=
  .ofList (List.replicate (width - s.toList.length) ' ' ++ s.toList)

theorem length_cutChars_le (width : Nat) (cs : List Char) (h : 0 < width) :
    (cutChars width cs).length ≤ width := by
  unfold cutChars
  split
  · assumption
  · simp only [List.length_append, List.length_take, List.length_singleton]
    omega

end AfterAction.Text
