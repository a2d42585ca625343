import AfterAction.Text.Ranges

/-!
Blank characters: the White_Space property. It is wider than ASCII blanks, and narrower
than what looks empty: a zero width space is not blank.
-/

namespace AfterAction.Text

def blankRanges : Ranges :=
  [(0x9, 0xD), (0x20, 0x20), (0x85, 0x85), (0xA0, 0xA0), (0x1680, 0x1680), (0x2000, 0x200A),
    (0x2028, 0x2029), (0x202F, 0x202F), (0x205F, 0x205F), (0x3000, 0x3000)]

def isBlank (c : Char) : Bool := blankRanges.contains c

/-- Blanks at the front are dropped. -/
def trimFront (cs : List Char) : List Char := cs.dropWhile isBlank

/-- Blanks at both ends are dropped; those inside stay. -/
def trimChars (cs : List Char) : List Char :=
  (trimFront (trimFront cs).reverse).reverse

def trim (s : String) : String := .ofList (trimChars s.toList)

theorem isBlank_space : isBlank ' ' = true := by decide

end AfterAction.Text
