import AfterAction.Report.Layout

/-!
Drawing a page: each line is a text object of its own, placed from the top of the page downwards,
and the footer at a fixed place. The fonts are the standard ones, so what they cannot show is
replaced before it is drawn.
-/

namespace AfterAction

/-- The fonts of a document, by their names in its resources. -/
inductive Font
  | regular
  | bold
  | mono
  deriving DecidableEq, Repr

def Font.resource : Font → String
  | .regular => "F1"
  | .bold => "F2"
  | .mono => "F3"

def Font.face : Font → String
  | .regular => "Helvetica"
  | .bold => "Helvetica-Bold"
  | .mono => "Courier"

/-- Fill colours, in tenths of red, green and blue. -/
structure Colour where
  red : Nat
  green : Nat
  blue : Nat
  deriving DecidableEq, Repr

def Colour.black : Colour := ⟨0, 0, 0⟩

def Colour.alert : Colour := ⟨8, 1, 1⟩

inductive Operator
  | beginText
  | endText
  | font (font : Font) (size : Nat)
  | move (x y : Int)
  | show (text : String)
  | fill (colour : Colour)
  deriving DecidableEq, Repr

namespace Drawing

def pageWidth : Nat := 595

def pageHeight : Nat := 842

def marginLeft : Int := 50

def firstLine : Int := 790

def lineHeight : Int := 14

def footerLine : Int := 40

def fontOf : Style → Font × Nat
  | .title => (.bold, 16)
  | .warning => (.bold, 11)
  | .heading => (.bold, 12)
  | .body => (.regular, 10)
  | .table => (.mono, 8)
  | .footer => (.regular, 8)

/-- How far below a line the next one stands. -/
def advance : Style → Int
  | .title => lineHeight + 6
  | .heading => lineHeight + 2
  | _ => lineHeight

/-- The standard fonts show printable ASCII. -/
def printable (c : Char) : Char := if 0x20 ≤ c.toNat ∧ c.toNat < 0x7F then c else '?'

def printableText (s : String) : String := .ofList (s.toList.map printable)

/-- A warning is drawn in the alert colour, and black holds again after it. -/
def drawLine (l : Line) (y : Int) : List Operator :=
  let (font, size) := fontOf l.style
  let place := if l.style = .footer then footerLine else y
  let text : List Operator :=
    [.beginText, .font font size, .move marginLeft place, .show (printableText l.text), .endText]
  if l.style = .warning then [.fill .alert] ++ text ++ [.fill .black] else text

/-- The lines from a height downwards. -/
def drawLines : List Line → Int → List Operator
  | [], _ => []
  | l :: rest, y => drawLine l y ++ drawLines rest (y - advance l.style)

def drawPage (p : Page) : List Operator := drawLines p.lines firstLine

end Drawing
end AfterAction
