import AfterAction.Proofs.Report.Sections

/-!
# Lines and pages

Lines are dealt out in order, so that every part is full but the last, and none is empty. With its
footer a part is a page: taking the footers off and putting the pages together again gives the lines
of the report, and what is known of these is known of the pages.
-/

namespace AfterAction.Layout

section
variable {α : Type} {size : Nat} {xs part : List α}

theorem deal_nil : deal size ([] : List α) = [] := by
  rw [deal]
  simp

theorem deal_of_ne_nil (hsize : 0 < size) (h : xs ≠ []) :
    deal size xs = xs.take size :: deal size (xs.drop size) := by
  rw [deal, dif_neg (by simp [h, Nat.ne_of_gt hsize])]

/-- Nothing is lost, and the order is kept. -/
theorem flatten_deal (hsize : 0 < size) (xs : List α) : (deal size xs).flatten = xs := by
  fun_induction deal size xs with
  | case1 xs h => simp [h.resolve_right (Nat.ne_of_gt hsize)]
  | case2 xs h ih => rw [List.flatten_cons, ih, List.take_append_drop]

theorem length_of_mem_deal (h : part ∈ deal size xs) : 0 < part.length ∧ part.length ≤ size := by
  fun_induction deal size xs with
  | case1 xs hend => cases h
  | case2 xs hgo ih =>
    rcases List.mem_cons.mp h with rfl | h
    · have hpos := List.length_pos_iff.mpr (not_or.mp hgo).1
      rw [List.length_take]
      omega
    · exact ih h

/-- A part that another one follows is full. -/
theorem length_of_mem_dropLast_deal (h : part ∈ (deal size xs).dropLast) : part.length = size := by
  fun_induction deal size xs with
  | case1 xs hend => cases h
  | case2 xs hgo ih =>
    by_cases hrest : xs.drop size = []
    · rw [hrest, deal_nil] at h
      cases h
    · rw [deal_of_ne_nil (by omega) hrest] at h ih
      rcases List.mem_cons.mp h with rfl | h
      · have hlong : size < xs.length := by simpa using hrest
        rw [List.length_take]
        omega
      · exact ih h

end

/-! ## Pages -/

theorem flatten_ne_nil (r : Report) : flatten r ≠ [] := by
  rw [flatten_eq, header_eq]
  simp

/-- The parts of a report's lines that its pages show. -/
def parts (r : Report) : List (List Line) := deal linesPerPage (flatten r)

theorem flatten_parts (r : Report) : (parts r).flatten = flatten r :=
  flatten_deal (by decide) (flatten r)

theorem parts_ne_nil (r : Report) : parts r ≠ [] := by
  rw [parts, deal_of_ne_nil (by decide) (flatten_ne_nil r)]
  simp

theorem paginate_eq (r : Report) : paginate r = (parts r).mapIdx fun i part =>
    ⟨part ++ [footer r.company (i + 1) (parts r).length]⟩ := by
  have hne := parts_ne_nil r
  have hpos := List.length_pos_iff.mpr hne
  have hmax : max (parts r).length 1 = (parts r).length := by omega
  rw [paginate, ← parts, hmax, if_neg (by simpa using hne)]

/-- Lines that fit one page stand on one. -/
theorem paginate_of_short {r : Report} (h : (flatten r).length ≤ linesPerPage) :
    paginate r = [⟨flatten r ++ [footer r.company 1 1]⟩] := by
  have hparts : parts r = [flatten r] := by
    rw [parts, deal_of_ne_nil (by decide) (flatten_ne_nil r), List.take_of_length_le h,
      List.drop_eq_nil_of_le h, deal_nil]
  rw [paginate_eq, hparts]
  rfl

theorem length_paginate (r : Report) : (paginate r).length = (parts r).length := by
  rw [paginate_eq, List.length_mapIdx]

theorem getElem?_paginate (r : Report) (i : Nat) : (paginate r)[i]? = (parts r)[i]?.map
    fun part => ⟨part ++ [footer r.company (i + 1) (paginate r).length]⟩ := by
  rw [length_paginate, paginate_eq, List.getElem?_mapIdx]

/-- A page is a part of the lines with a footer. -/
theorem mem_paginate {r : Report} {page : Page} (h : page ∈ paginate r) : ∃ part number total,
    part ∈ parts r ∧ page.lines = part ++ [footer r.company number total] := by
  obtain ⟨i, hi⟩ := List.mem_iff_getElem?.mp h
  rw [getElem?_paginate] at hi
  obtain ⟨part, hpart, rfl⟩ := Option.map_eq_some_iff.mp hi
  exact ⟨part, i + 1, (paginate r).length, List.mem_of_getElem? hpart, rfl⟩

theorem map_dropLast_paginate (r : Report) :
    (paginate r).map (·.lines.dropLast) = parts r := by
  refine List.ext_getElem? fun i => ?_
  rw [List.getElem?_map, getElem?_paginate, Option.map_map]
  cases (parts r)[i]? <;> simp

theorem flatMap_dropLast_paginate (r : Report) :
    (paginate r).flatMap (·.lines.dropLast) = flatten r := by
  rw [List.flatMap_def, map_dropLast_paginate, flatten_parts]

theorem mem_flatten_of_mem_parts {r : Report} {part : List Line} {l : Line}
    (hpart : part ∈ parts r) (hl : l ∈ part) : l ∈ flatten r := by
  rw [← flatten_parts]
  exact List.mem_flatten.mpr ⟨part, hpart, hl⟩

theorem full_of_mem_dropLast {r : Report} {page : Page} (h : page ∈ (paginate r).dropLast) :
    page.lines.length = linesPerPage + 1 := by
  have hpart : page.lines.dropLast ∈ (parts r).dropLast := by
    rw [← map_dropLast_paginate, ← List.map_dropLast]
    exact List.mem_map_of_mem h
  have hlen := length_of_mem_dropLast_deal hpart
  obtain ⟨part, number, total, -, hlines⟩ := mem_paginate ((List.dropLast_sublist _).subset h)
  rw [hlines, List.dropLast_concat] at hlen
  rw [hlines, List.length_append, hlen]
  rfl

/-- Footers are no headings. -/
theorem headings_paginate (r : Report) :
    ((paginate r).flatMap (·.lines)).filter (·.style = .heading) =
      (flatten r).filter (·.style = .heading) := by
  rw [← flatMap_dropLast_paginate, List.filter_flatMap, List.filter_flatMap]
  refine List.flatMap_congr fun page hpage => ?_
  obtain ⟨part, number, total, -, hlines⟩ := mem_paginate hpage
  rw [hlines, List.dropLast_concat, List.filter_append]
  exact List.append_nil _

/-- The pages hold all lines of the report, and where they stand. -/
structure ShowsAll (r : Report) (pages : List Page) : Prop where
  lines : pages.flatMap (·.lines.dropLast) = flatten r
  shape : ∀ page ∈ pages, ∃ part foot, page.lines = part ++ [foot] ∧
    1 ≤ part.length ∧ part.length ≤ linesPerPage ∧
    foot.style = .footer ∧ ∀ l ∈ part, l.style ≠ .footer
  full : ∀ page ∈ pages.dropLast, page.lines.length = linesPerPage + 1
  fits : ∀ page ∈ pages, ∀ l ∈ page.lines, l.text.length ≤ lineWidth
  headings : (pages.flatMap (·.lines)).filter (·.style = .heading) =
    sectionTitles.map (Line.mk .heading)
  /-- After the last heading, a table head and a line for each row. -/
  table : r.rows ≠ [] → ∃ head, head.style = .table ∧
    (pages.flatMap (·.lines.dropLast)).rtakeWhile (·.style ≠ .heading) =
      head :: r.rows.map techniqueLine ∧
    ∀ row ∈ r.rows, (techniqueLine row).style = .table
  noTable : r.rows = [] → ∃ l, l.style = .body ∧
    (pages.flatMap (·.lines.dropLast)).rtakeWhile (·.style ≠ .heading) = [l]
  partialNotice : ∀ i, (pages.flatMap (·.lines.dropLast))[i]? = some notice ↔
    i = 2 ∧ r.isPartial = true

/-- **Pagination loses nothing.** -/
theorem paginate_showsAll (r : Report) : ShowsAll r (paginate r) where
  lines := flatMap_dropLast_paginate r
  shape page hpage := by
    obtain ⟨part, number, total, hpart, hlines⟩ := mem_paginate hpage
    obtain ⟨hpos, hle⟩ := length_of_mem_deal hpart
    exact ⟨part, _, hlines, hpos, hle, rfl,
      fun l hl => (flatten_fits (mem_flatten_of_mem_parts hpart hl)).1⟩
  full page hpage := full_of_mem_dropLast hpage
  fits page hpage l hl := by
    obtain ⟨part, number, total, hpart, hlines⟩ := mem_paginate hpage
    rw [hlines] at hl
    rcases List.mem_append.mp hl with hl | hl
    · exact (flatten_fits (mem_flatten_of_mem_parts hpart hl)).2
    · rw [List.mem_singleton.mp hl]
      exact line_length_le _ _
  headings := (headings_paginate r).trans (flatten_headings r)
  table hrows := by
    refine ⟨line .table (techniqueCells "ID" "Technique" "Tactic" "Result" "Detection"), rfl, ?_,
      fun row _ => rfl⟩
    rw [flatMap_dropLast_paginate, flatten_table, techniqueTable, if_neg (by simpa using hrows)]
  noTable hrows := by
    refine ⟨nothingExecuted, rfl, ?_⟩
    rw [flatMap_dropLast_paginate, flatten_table, techniqueTable, if_pos (by simpa using hrows)]
  partialNotice i := by
    rw [flatMap_dropLast_paginate]
    exact notice_iff r i

end AfterAction.Layout
