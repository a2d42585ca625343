import AfterAction.Proofs.Report.Pages
import AfterAction.Report.Drawing

/-!
# What stands on a drawn page

`Canvas` reads operators as a viewer does: a text object begins at the origin, moves add up inside of
it, and a text is shown in the font, the colour and the place that are in force. Read so, a page
shows each of its lines once, the footer in its own place and the others one below the other. How
far down they reach depends on the tall lines among them, and a report has few of these: one title
and a heading for each section.
-/

namespace AfterAction

/-- A text as it stands on a page. -/
structure Mark where
  text : String
  font : Font
  size : Nat
  colour : Colour
  x : Int
  y : Int
  deriving DecidableEq, Repr

/-- A page while its operators are read. -/
structure Canvas where
  marks : List Mark
  colour : Colour
  /-- Stays in force from one text object to the next. -/
  font : Option (Font × Nat)
  /-- Where the text object is, inside of one. -/
  place : Option (Int × Int)
  deriving DecidableEq, Repr

namespace Canvas

def blank : Canvas := ⟨[], .black, none, none⟩

/-- Text objects do not nest, and only inside of one a text can be placed or shown. -/
def draw? (c : Canvas) : Operator → Option Canvas
  | .beginText =>
    match c.place with
    | none => some { c with place := some (0, 0) }
    | some _ => none
  | .endText =>
    match c.place with
    | some _ => some { c with place := none }
    | none => none
  | .font font size => some { c with font := some (font, size) }
  | .move x y =>
    match c.place with
    | some (x₀, y₀) => some { c with place := some (x₀ + x, y₀ + y) }
    | none => none
  | .show text =>
    match c.font, c.place with
    | some (font, size), some (x, y) =>
      some { c with marks := c.marks ++ [⟨text, font, size, c.colour, x, y⟩] }
    | _, _ => none
  | .fill colour => some { c with colour }

def read? (c : Canvas) (ops : List Operator) : Option Canvas := ops.foldlM draw? c

theorem read?_append {c c' : Canvas} {ops : List Operator} (h : c.read? ops = some c')
    (ops' : List Operator) : c.read? (ops ++ ops') = c'.read? ops' := by
  unfold read? at h ⊢
  rw [List.foldlM_append, h]
  rfl

end Canvas

namespace Drawing

/-- What operators draw on a blank page; none if they cannot be read. -/
def marks? (ops : List Operator) : Option (List Mark) := (Canvas.blank.read? ops).map (·.marks)

/-- A line at a height. -/
def markOf (l : Line) (y : Int) : Mark where
  text := printableText l.text
  font := (fontOf l.style).1
  size := (fontOf l.style).2
  colour := if l.style = .warning then .alert else .black
  x := marginLeft
  y

/-- The heights of lines from the first one downwards. -/
def heights : List Line → Int → List Int
  | [], _ => []
  | l :: rest, y => (if l.style = .footer then footerLine else y) :: heights rest (y - advance l.style)

/-! ## Reading a page -/

/-- Between lines the colour is black and no text object is open. -/
theorem read?_drawLine (marks : List Mark) (font : Option (Font × Nat)) (l : Line) (y : Int) :
    Canvas.read? ⟨marks, .black, font, none⟩ (drawLine l y) =
      some ⟨marks ++ [markOf l (if l.style = .footer then footerLine else y)], .black,
        some (fontOf l.style), none⟩ := by
  obtain ⟨style, text⟩ := l
  cases style <;> simp [Canvas.read?, Canvas.draw?, drawLine, markOf]

theorem read?_drawLines (marks : List Mark) (font : Option (Font × Nat)) (ls : List Line) (y : Int) :
    ∃ font', Canvas.read? ⟨marks, .black, font, none⟩ (drawLines ls y) =
      some ⟨marks ++ List.zipWith markOf ls (heights ls y), .black, font', none⟩ := by
  induction ls generalizing marks font y with
  | nil => exact ⟨font, by simp [drawLines, heights, Canvas.read?]⟩
  | cons l rest ih =>
    obtain ⟨font', hrest⟩ := ih (marks ++ [markOf l (if l.style = .footer then footerLine else y)])
      (some (fontOf l.style)) (y - advance l.style)
    refine ⟨font', ?_⟩
    rw [drawLines, Canvas.read?_append (read?_drawLine marks font l y), hrest, heights,
      List.zipWith_cons_cons, List.append_assoc, List.singleton_append]

/-- A page shows each of its lines, at its height. -/
theorem marks?_drawPage (p : Page) :
    marks? (drawPage p) = some (List.zipWith markOf p.lines (heights p.lines firstLine)) := by
  obtain ⟨font, hread⟩ := read?_drawLines [] none p.lines firstLine
  rw [marks?, drawPage, Canvas.blank, hread]
  rfl

/-! ## Heights -/

theorem lineHeight_le_advance (style : Style) : lineHeight ≤ advance style := by
  cases style <;> decide

theorem advance_pos (style : Style) : 0 < advance style :=
  Int.lt_of_lt_of_le (by decide) (lineHeight_le_advance style)

/-- How far down lines reach, the room below the last one included. -/
def extent : List Line → Int
  | [] => 0
  | l :: rest => advance l.style + extent rest

variable {ls : List Line} {foot : Line} {y z : Int}

/-- Every line takes a line's height, a title and a heading some more. -/
theorem extent_eq (ls : List Line) : extent ls = lineHeight * ls.length +
    6 * ls.countP (·.style = .title) + 2 * ls.countP (·.style = .heading) := by
  induction ls with
  | nil => rfl
  | cons l rest ih =>
    rw [extent, ih, List.countP_cons, List.countP_cons, List.length_cons]
    have hheight : lineHeight = 14 := rfl
    cases hs : l.style <;> simp [advance, hheight] <;> omega

theorem extent_nonneg (ls : List Line) : 0 ≤ extent ls := by
  have hheight : lineHeight = 14 := rfl
  rw [extent_eq, hheight]
  omega

theorem length_heights (ls : List Line) (y : Int) : (heights ls y).length = ls.length := by
  induction ls generalizing y with
  | nil => rfl
  | cons l rest ih => rw [heights, List.length_cons, ih, List.length_cons]

/-- No line is above the first or below the extent of all. -/
theorem heights_bounds (hls : ∀ l ∈ ls, l.style ≠ .footer) (hz : z ∈ heights ls y) :
    z ≤ y ∧ y - extent ls + lineHeight ≤ z := by
  induction ls generalizing y with
  | nil => cases hz
  | cons l rest ih =>
    have hrest : ∀ l ∈ rest, l.style ≠ .footer := fun l hl => hls l (List.mem_cons_of_mem _ hl)
    have hadvance := lineHeight_le_advance l.style
    have hpos := advance_pos l.style
    have hnonneg := extent_nonneg rest
    rw [heights, if_neg (hls l List.mem_cons_self)] at hz
    rw [extent]
    rcases List.mem_cons.mp hz with rfl | hz
    · omega
    · obtain ⟨hle, hge⟩ := ih hrest hz
      omega

theorem heights_decrease (hls : ∀ l ∈ ls, l.style ≠ .footer) :
    (heights ls y).Pairwise (· > ·) := by
  induction ls generalizing y with
  | nil => exact .nil
  | cons l rest ih =>
    have hrest : ∀ l ∈ rest, l.style ≠ .footer := fun l hl => hls l (List.mem_cons_of_mem _ hl)
    rw [heights, if_neg (hls l List.mem_cons_self)]
    refine List.pairwise_cons.mpr ⟨fun z hz => ?_, ih hrest⟩
    have hle := (heights_bounds hrest hz).1
    have hpos := advance_pos l.style
    omega

theorem heights_concat (hls : ∀ l ∈ ls, l.style ≠ .footer) (hfoot : foot.style = .footer) :
    heights (ls ++ [foot]) y = heights ls y ++ [footerLine] := by
  induction ls generalizing y with
  | nil => simp [heights, hfoot]
  | cons l rest ih =>
    rw [List.cons_append, heights, ih fun l hl => hls l (List.mem_cons_of_mem _ hl)]
    rfl

theorem head?_heights (hls : ∀ l ∈ ls, l.style ≠ .footer) (hne : ls ≠ []) :
    (heights ls y).head? = some y := by
  cases ls with
  | nil => exact absurd rfl hne
  | cons l rest => rw [heights, if_neg (hls l List.mem_cons_self)]; rfl

/-! ## The pages of a report -/

/-- A part of a report has one title at most, and a heading for each section at most. -/
theorem extent_part {r : Report} {part : List Line} (h : part ∈ Layout.parts r) :
    extent part ≤ 14 * Layout.linesPerPage + 16 := by
  have hsub : part.Sublist (Layout.flatten r) := by
    rw [← Layout.flatten_parts]
    exact List.sublist_flatten_of_mem h
  have htitles : part.countP (·.style = .title) ≤ 1 := by
    refine Nat.le_trans hsub.countP_le ?_
    rw [List.countP_eq_length_filter, Layout.flatten_titles]
    exact Nat.le_refl 1
  have hheadings : part.countP (·.style = .heading) ≤ 5 := by
    refine Nat.le_trans hsub.countP_le ?_
    rw [List.countP_eq_length_filter, Layout.flatten_headings]
    decide
  have hlen := (Layout.length_of_mem_deal h).2
  have hheight : lineHeight = 14 := rfl
  rw [extent_eq, hheight]
  omega

/-- **Nothing is drawn over the footer.** On every page of a report the lines begin at the top, each
stands below the one before, and the last of them is still a line above the footer. -/
theorem paginate_drawn (r : Report) (i : Fin (Layout.paginate r).length) :
    ∃ part foot ys, ((Layout.paginate r).get i).lines = part ++ [foot] ∧ foot.style = .footer ∧
      marks? (drawPage ((Layout.paginate r).get i)) =
        some (List.zipWith markOf part ys ++ [markOf foot footerLine]) ∧
      ys.length = part.length ∧ ys.head? = some firstLine ∧ ys.Pairwise (· > ·) ∧
      ∀ y ∈ ys, footerLine + lineHeight ≤ y := by
  obtain ⟨part, number, total, hpart, hlines⟩ := Layout.mem_paginate ((Layout.paginate r).get_mem i)
  have hplain : ∀ l ∈ part, l.style ≠ .footer := fun l hl =>
    (Layout.flatten_fits (Layout.mem_flatten_of_mem_parts hpart hl)).1
  have hne : part ≠ [] := List.length_pos_iff.mp (Layout.length_of_mem_deal hpart).1
  refine ⟨part, Layout.footer r.company number total, heights part firstLine, hlines, rfl, ?_,
    length_heights part firstLine, head?_heights hplain hne, heights_decrease hplain,
    fun y hy => ?_⟩
  · rw [marks?_drawPage, hlines, heights_concat hplain rfl,
      List.zipWith_append (length_heights part firstLine).symm]
    rfl
  · have hextent := extent_part hpart
    have hge := (heights_bounds hplain hy).2
    have hfirst : firstLine = 790 := rfl
    have hfooter : footerLine = 40 := rfl
    have hpage : Layout.linesPerPage = 48 := rfl
    have hheight : lineHeight = 14 := rfl
    omega

/-- A full page of headings would run into its footer. -/
example : 38 ∈ heights (List.replicate 48 ⟨.heading, ""⟩) firstLine := by decide

end Drawing
end AfterAction
