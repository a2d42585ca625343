import AfterAction.Proofs.Report.Marks
import AfterAction.Report.Pdf
import Mathlib.Data.List.Forall2

/-!
# Drawn pages read back

A sheet reads operators as a canvas does, and keeps the text objects apart. A line's operators leave
the colour and the text object as they found them, black and closed: so every line stands in a text
object of its own, whatever is drawn before it. No two styles look alike, and what is drawn of a page
gives back its lines in order, with their styles and, but for the characters that the fonts lack,
their texts.
-/

namespace AfterAction

/-- A page while its operators are read. Its canvas has the marks of the text object at hand. -/
structure Sheet where
  canvas : Canvas
  /-- The marks of each text object that is closed. -/
  objects : List (List Mark)
  deriving DecidableEq, Repr

namespace Sheet

def blank : Sheet := ⟨.blank, []⟩

def draw? (s : Sheet) (op : Operator) : Option Sheet :=
  (s.canvas.draw? op).map fun canvas =>
    match op with
    | .endText => ⟨{ canvas with marks := [] }, s.objects ++ [canvas.marks]⟩
    | _ => ⟨canvas, s.objects⟩

def read? (s : Sheet) (ops : List Operator) : Option Sheet := ops.foldlM draw? s

theorem read?_append {s s' : Sheet} {ops : List Operator} (h : s.read? ops = some s')
    (ops' : List Operator) : s.read? (ops ++ ops') = s'.read? ops' := by
  unfold read? at h ⊢
  rw [List.foldlM_append, h]
  rfl

end Sheet

/-! ## Looks -/

/-- What tells styles apart on a page. -/
def Style.look (style : Style) : Font × Nat × Colour :=
  ((Drawing.fontOf style).1, (Drawing.fontOf style).2,
    if style = .warning then .alert else .black)

def Mark.look (m : Mark) : Font × Nat × Colour := (m.font, m.size, m.colour)

/-- No two styles look alike. -/
theorem Style.look_inj {style style' : Style} : style.look = style'.look ↔ style = style' := by
  cases style <;> cases style' <;> decide

/-- The style that a mark shows. -/
def Mark.style? (m : Mark) : Option Style := (Style.byName.map (·.2)).find? (·.look = m.look)

theorem Mark.style?_eq_some {m : Mark} {style : Style} (h : m.look = style.look) :
    m.style? = some style := by
  rw [style?, h]
  cases style <;> decide

namespace Drawing

/-- How a character is shown: printable ASCII as it is, and all else by a question mark. -/
def ShownAs (c d : Char) : Prop := d = if ' ' ≤ c ∧ c ≤ '~' then c else '?'

instance (c d : Char) : Decidable (ShownAs c d) := inferInstanceAs (Decidable (_ = _))

theorem shownAs_printable (c : Char) : ShownAs c (printable c) := by
  have hrange : (' ' ≤ c ∧ c ≤ '~') ↔ (0x20 ≤ c.toNat ∧ c.toNat < 0x7F) :=
    and_congr Iff.rfl Nat.lt_succ_iff.symm
  simp only [ShownAs, printable, hrange]

/-- One character is shown for each of the text. -/
theorem forall₂_printableText (s : String) :
    List.Forall₂ ShownAs s.toList (printableText s).toList := by
  rw [printableText, String.toList_ofList, List.forall₂_map_right_iff, List.forall₂_same]
  exact fun c _ => shownAs_printable c

/-- A line with the text that is shown for it. -/
def shown (l : Line) : Line := ⟨l.style, printableText l.text⟩

/-- A mark shows a line: the characters of its text one by one, in a look that only its style has,
and in red for a warning. -/
structure Shows (m : Mark) (l : Line) : Prop where
  text : List.Forall₂ ShownAs l.text.toList m.text.toList
  look_iff : ∀ style : Style, style.look = m.look ↔ style = l.style
  colour : m.colour = if l.style = .warning then ⟨8, 1, 1⟩ else ⟨0, 0, 0⟩

theorem look_markOf (l : Line) (y : Int) : (markOf l y).look = l.style.look := rfl

theorem shows_markOf (l : Line) (y : Int) : Shows (markOf l y) l where
  text := forall₂_printableText l.text
  look_iff _ := (look_markOf l y).symm ▸ Style.look_inj
  colour := rfl

/-- The line that a text object shows, if it shows one and nothing else. -/
def lineOf? : List Mark → Option Line
  | [m] => m.style?.map (⟨·, m.text⟩)
  | _ => none

theorem lineOf?_markOf (l : Line) (y : Int) : lineOf? [markOf l y] = some (shown l) := by
  rw [lineOf?, Mark.style?_eq_some (look_markOf l y)]
  rfl

/-! ## Pages -/

/-- The lines that operators draw, if each of them stands in a text object of its own. -/
def lines? (ops : List Operator) : Option (List Line) :=
  (Sheet.blank.read? ops).bind fun sheet => sheet.objects.mapM lineOf?

/-- Between lines the colour is black and no text object is open. -/
theorem sheet_drawLine (objects : List (List Mark)) (font : Option (Font × Nat)) (l : Line)
    (y : Int) : Sheet.read? ⟨⟨[], .black, font, none⟩, objects⟩ (drawLine l y) =
      some ⟨⟨[], .black, some (fontOf l.style), none⟩,
        objects ++ [[markOf l (if l.style = .footer then footerLine else y)]]⟩ := by
  obtain ⟨style, text⟩ := l
  cases style <;> simp [Sheet.read?, Sheet.draw?, Canvas.draw?, drawLine, markOf]

theorem sheet_drawLines (objects : List (List Mark)) (font : Option (Font × Nat)) (ls : List Line)
    (y : Int) : ∃ font', Sheet.read? ⟨⟨[], .black, font, none⟩, objects⟩ (drawLines ls y) =
      some ⟨⟨[], .black, font', none⟩,
        objects ++ List.zipWith (fun l z => [markOf l z]) ls (heights ls y)⟩ := by
  induction ls generalizing objects font y with
  | nil => exact ⟨font, by simp [drawLines, heights, Sheet.read?]⟩
  | cons l rest ih =>
    obtain ⟨font', hrest⟩ := ih
      (objects ++ [[markOf l (if l.style = .footer then footerLine else y)]])
      (some (fontOf l.style)) (y - advance l.style)
    refine ⟨font', ?_⟩
    rw [drawLines, Sheet.read?_append (sheet_drawLine objects font l y), hrest, heights,
      List.zipWith_cons_cons, List.append_assoc, List.singleton_append]

theorem sheet_drawPage (p : Page) : ∃ font, Sheet.blank.read? (drawPage p) =
    some ⟨⟨[], .black, font, none⟩,
      List.zipWith (fun l z => [markOf l z]) p.lines (heights p.lines firstLine)⟩ :=
  sheet_drawLines [] none p.lines firstLine

/-- What holds of every line and the object that shows it, holds along a page. -/
theorem forall₂_objects {R : Line → List Mark → Prop} (hR : ∀ l y, R l [markOf l y])
    {ls : List Line} {ys : List Int} (h : ys.length = ls.length) :
    List.Forall₂ R ls (List.zipWith (fun l z => [markOf l z]) ls ys) := by
  induction ls generalizing ys with
  | nil => exact .nil
  | cons l rest ih =>
    obtain ⟨y, ys, rfl⟩ := List.exists_cons_of_length_eq_add_one h
    exact .cons (hR l y) (ih (Nat.succ.inj h))

/-- Things that can each be read can be read together. -/
theorem mapM_of_forall₂ {α β γ : Type} {read : β → Option γ} {meant : α → γ} {as : List α}
    {bs : List β} (h : List.Forall₂ (fun a b => read b = some (meant a)) as bs) :
    bs.mapM read = some (as.map meant) := by
  induction h with
  | nil => rfl
  | cons hread _ ih =>
    rw [List.mapM_cons, hread, ih]
    rfl

theorem lines?_drawPage (p : Page) : lines? (drawPage p) = some (p.lines.map shown) := by
  obtain ⟨font, hread⟩ := sheet_drawPage p
  rw [lines?, hread]
  exact mapM_of_forall₂ (forall₂_objects lineOf?_markOf (length_heights p.lines firstLine))

/-- A text object shows a line and nothing else. -/
def ShowsOnly (l : Line) (object : List Mark) : Prop := ∃ m, object = [m] ∧ Shows m l

/-- What operators draw on a page that begins black: the lines in order, each in a text object of its
own; at the end black holds, and no text object is open. -/
def Draws (ops : List Operator) (ls : List Line) : Prop :=
  ∃ sheet, Sheet.blank.read? ops = some sheet ∧ List.Forall₂ ShowsOnly ls sheet.objects ∧
    sheet.canvas.colour = ⟨0, 0, 0⟩ ∧ sheet.canvas.place = none

theorem draws_drawPage (p : Page) : Draws (drawPage p) p.lines := by
  obtain ⟨font, hread⟩ := sheet_drawPage p
  have hshows : ∀ l y, ShowsOnly l [markOf l y] := fun l y => ⟨markOf l y, rfl, shows_markOf l y⟩
  exact ⟨_, hread, forall₂_objects hshows (length_heights p.lines firstLine), rfl, rfl⟩

end Drawing

namespace Pdf

/-- Pages stay in their order. -/
theorem forall₂_pages {R : Page → List Operator → Prop} (hR : ∀ page, R page (Drawing.drawPage page))
    (pages : List Page) : List.Forall₂ R pages (ofPages pages).pages := by
  rw [ofPages, List.forall₂_map_right_iff, List.forall₂_same]
  exact fun page _ => hR page

theorem mapM_lines?_ofPages (pages : List Page) : (ofPages pages).pages.mapM Drawing.lines? =
    some (pages.map fun page => page.lines.map Drawing.shown) :=
  Drawing.mapM_of_forall₂ (forall₂_pages Drawing.lines?_drawPage pages)

/-- **A document says what was laid out.** It has one page for each that it was made of, in their
order, and the operators of each draw its lines, which can be read back from them. -/
theorem ofPages_legible (pages : List Page) :
    (ofPages pages).pageCount = (ofPages pages).pages.length ∧
    List.Forall₂ (fun page ops => Drawing.Draws ops page.lines) pages (ofPages pages).pages ∧
    (ofPages pages).pages.mapM Drawing.lines? =
      some (pages.map fun page => page.lines.map Drawing.shown) :=
  ⟨(List.length_map ..).symm, forall₂_pages Drawing.draws_drawPage pages,
    mapM_lines?_ofPages pages⟩

end Pdf
end AfterAction
