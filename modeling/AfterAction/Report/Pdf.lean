import AfterAction.Report.Drawing

/-!
The document as a file holds it: a version, a page size and the fonts, shared by all pages, and the
operators of each page.
-/

namespace AfterAction

/-- A font object: type, subtype, face and encoding. -/
structure FontEntry where
  kind : String
  subtype : String
  face : String
  encoding : String
  deriving DecidableEq, Repr

structure Pdf where
  version : String
  mediaBox : List Nat
  fonts : List (String × FontEntry)
  pageCount : Nat
  pages : List (List Operator)
  deriving DecidableEq, Repr

namespace Pdf

def fontEntry (font : Font) : String × FontEntry :=
  (font.resource, ⟨"Font", "Type1", font.face, "WinAnsiEncoding"⟩)

def ofPages (pages : List Page) : Pdf where
  version := "1.5"
  mediaBox := [0, 0, Drawing.pageWidth, Drawing.pageHeight]
  fonts := [fontEntry .regular, fontEntry .bold, fontEntry .mono]
  pageCount := pages.length
  pages := pages.map Drawing.drawPage

/-- The report of a run, laid out and drawn. -/
def render (company : String) (run : Run) (detections : Detections) (now : Instant) : Pdf :=
  ofPages (Layout.paginate (Report.ofRun run detections company now))

end Pdf
end AfterAction
