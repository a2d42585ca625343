import AfterAction.Proofs.Report.Pages

/-!
# Page numbers

A footer begins with the company's name and is cut to the width of a line like any other. The page
number stands at its end, so it is whole exactly if the name leaves it room. A footer that is cut
can still show the text of a page number, but only one that is part of the name.
-/

namespace AfterAction

/-- An occurrence in a list around an element that it lacks is on one side of it. -/
theorem occurs_beside {α : Type} {part before after xs ys : List α} {x : α} (hx : x ∉ part)
    (h : before ++ part ++ after = xs ++ x :: ys) :
    (∃ rest, before ++ part ++ rest = xs ∧ after = rest ++ x :: ys) ∨
    ∃ rest, rest ++ part ++ after = ys := by
  rcases List.append_eq_append_iff.mp h with ⟨rest, rfl, hafter⟩ | ⟨more, hmore, hys⟩
  · exact .inl ⟨rest, rfl, hafter⟩
  cases more with
  | nil => exact .inl ⟨[], by simpa using hmore, hys.symm⟩
  | cons y more =>
    obtain ⟨rfl, rfl⟩ := List.cons.inj hys
    rcases List.append_eq_append_iff.mp hmore with ⟨inside, -, hpart⟩ | ⟨rest, -, hrest⟩
    · exact absurd (by simp [hpart]) hx
    · cases rest with
      | nil =>
        rw [List.nil_append] at hrest
        exact absurd (by simp [← hrest]) hx
      | cons y rest =>
        obtain ⟨-, rfl⟩ := List.cons.inj hrest
        exact .inr ⟨rest, rfl⟩

/-- The text is part of the line. -/
def Line.Shows (l : Line) (text : String) : Prop := text.toList <:+: l.text.toList

namespace Layout

/-- The number of a page as its footer gives it. -/
def pageMark (number total : Nat) : String :=
  "Page " ++ count number ++ " of " ++ count total

theorem isDigit_of_mem_count {n : Nat} {c : Char} (h : c ∈ (count n).toList) :
    c.isDigit = true := by
  rw [count, Nat.toString_eq_ofList_toDigits, String.toList_ofList] at h
  exact Nat.isDigit_of_mem_toDigits (by decide) (by decide) h

theorem length_pageMark (number total : Nat) : (pageMark number total).length =
    9 + (count number).length + (count total).length := by
  simp only [pageMark, String.length_append]
  have hpage : "Page ".length = 5 := rfl
  have hof : " of ".length = 4 := rfl
  omega

/-- A page number has no separator in it, and no mark of a cut. -/
theorem not_mem_pageMark {number total : Nat} {c : Char} (hdigit : c.isDigit = false)
    (hpage : c ∉ "Page ".toList) (hof : c ∉ " of ".toList) :
    c ∉ (pageMark number total).toList := by
  have hcount : ∀ n, c ∉ (count n).toList := fun n hc => by
    rw [isDigit_of_mem_count hc] at hdigit
    cases hdigit
  simp only [pageMark, String.toList_append, List.mem_append, not_or]
  exact ⟨⟨⟨hpage, hcount number⟩, hof⟩, hcount total⟩

theorem mem_pageMark (number total : Nat) : 'P' ∈ (pageMark number total).toList := by
  simp only [pageMark, String.toList_append, List.mem_append]
  exact .inl (.inl (.inl (by decide)))

/-- A page number ends with a digit. -/
theorem getLast?_pageMark (number total : Nat) :
    (pageMark number total).toList.getLast? ≠ some ' ' := by
  have hne : (count total).toList ≠ [] := by
    rw [count, Nat.toString_eq_ofList_toDigits, String.toList_ofList]
    exact Nat.toDigits_ne_nil
  rw [pageMark, String.toList_append, List.getLast?_append_of_ne_nil _ hne]
  intro hlast
  exact absurd (isDigit_of_mem_count (List.mem_of_getLast? hlast)) (by decide)

/-- What stands between the name and the page number. -/
def footerNote : List Char := " | Confidential | ".toList

theorem footer_text (company : String) (number total : Nat) :
    (footer company number total).text.toList = Text.cutChars lineWidth
      (company.toList ++ footerNote ++ (pageMark number total).toList) := by
  have hnote : " | Confidential | Page ".toList = footerNote ++ "Page ".toList := by decide
  simp only [footer, line, Text.cut, String.toList_ofList, String.toList_append, pageMark, hnote,
    List.append_assoc]

/-- A page number that has more than one character after it, where name, note and page number stand
in a row, is part of the name. -/
theorem occurs_in_name {name before after : List Char} {number total : Nat}
    (h : before ++ (pageMark number total).toList ++ after =
      name ++ footerNote ++ (pageMark number total).toList) (hafter : 1 < after.length) :
    ∃ rest, before ++ (pageMark number total).toList ++ rest = name := by
  have hbar : '|' ∉ (pageMark number total).toList :=
    not_mem_pageMark (by decide) (by decide) (by decide)
  have hnote : name ++ footerNote ++ (pageMark number total).toList =
      (name ++ [' ']) ++ '|' :: (" Confidential ".toList ++
        '|' :: (' ' :: (pageMark number total).toList)) := by
    rw [show footerNote = ' ' :: '|' :: (" Confidential ".toList ++ ['|', ' ']) by decide]
    simp only [List.append_assoc, List.cons_append, List.nil_append]
  rw [hnote] at h
  rcases occurs_beside hbar h with ⟨rest, hname, -⟩ | ⟨before, h⟩
  · rcases List.eq_nil_or_concat rest with rfl | ⟨rest, c, rfl⟩
    · rw [List.append_nil] at hname
      have hlast := congrArg List.getLast? hname
      rw [List.getLast?_append_of_ne_nil _ (List.ne_nil_of_mem (mem_pageMark number total)),
        List.getLast?_concat] at hlast
      exact absurd hlast (getLast?_pageMark number total)
    · rw [List.concat_eq_append, ← List.append_assoc] at hname
      exact ⟨rest, (List.append_inj' hname rfl).1⟩
  · rcases occurs_beside hbar h with ⟨rest, hword, -⟩ | ⟨before, h⟩
    · have hmem : 'P' ∈ " Confidential ".toList := by
        rw [← hword]
        simp [mem_pageMark]
      exact absurd hmem (by decide)
    · have hlen := congrArg List.length h
      simp only [List.length_append, List.length_cons] at hlen
      omega

theorem length_footer_text (company : String) (number total : Nat) :
    (company.toList ++ footerNote ++ (pageMark number total).toList).length =
      27 + company.length + (count number).length + (count total).length := by
  have hnote : footerNote.length = 18 := rfl
  rw [List.length_append, List.length_append, String.length_toList, String.length_toList,
    length_pageMark, hnote]
  omega

/-- A text that is too long for its line shows the page number only within the name. -/
theorem cut_shows_iff {name : List Char} {number total : Nat} (h : lineWidth <
    (name ++ footerNote ++ (pageMark number total).toList).length) :
    (pageMark number total).toList <:+: Text.cutChars lineWidth
        (name ++ footerNote ++ (pageMark number total).toList) ↔
      (pageMark number total).toList <:+: name.take (lineWidth - 1) := by
  obtain ⟨full, hfull⟩ : ∃ full,
    full = name ++ footerNote ++ (pageMark number total).toList := ⟨_, rfl⟩
  have hwidth : lineWidth = 95 := rfl
  rw [← hfull] at h ⊢
  rw [Text.cutChars, if_neg (Nat.not_le_of_lt h)]
  constructor
  · rintro ⟨before, after, hoccurs⟩
    have hmark : '~' ∉ (pageMark number total).toList :=
      not_mem_pageMark (by decide) (by decide) (by decide)
    rcases occurs_beside hmark hoccurs with ⟨rest, htake, -⟩ | ⟨rest, hnil⟩
    · have hwhole : before ++ (pageMark number total).toList ++
          (rest ++ full.drop (lineWidth - 1)) = full := by
        rw [← List.append_assoc, htake]
        exact List.take_append_drop _ full
      obtain ⟨rest', hname⟩ := occurs_in_name (hwhole.trans hfull) (by
        rw [List.length_append, List.length_drop]
        omega)
      have hshort : (before ++ (pageMark number total).toList).length ≤ lineWidth - 1 := by
        have htaken := congrArg List.length htake
        rw [List.length_append, List.length_take] at htaken
        omega
      rw [← hname, List.take_append, List.take_of_length_le hshort]
      exact ⟨before, _, rfl⟩
    · have hmem := mem_pageMark number total
      simp [(List.append_eq_nil_iff.mp (List.append_eq_nil_iff.mp hnil).1).2] at hmem
  · intro hname
    have hprefix : name.take (lineWidth - 1) <+: full.take (lineWidth - 1) := by
      rw [hfull, List.append_assoc, List.take_append]
      exact List.prefix_append _ _
    exact (hname.trans hprefix.isInfix).trans (List.prefix_append _ _).isInfix

/-- Either the whole footer fits the line, or the part of the name that fits happens to hold the
text of the page number. -/
theorem footer_shows_iff (company : String) (number total : Nat) :
    (footer company number total).Shows (pageMark number total) ↔
      company.length + (count number).length + (count total).length ≤ 68 ∨
      (pageMark number total).toList <:+: company.toList.take (lineWidth - 1) := by
  have hlen := length_footer_text company number total
  have hwidth : lineWidth = 95 := rfl
  rw [Line.Shows, footer_text]
  by_cases hroom : company.length + (count number).length + (count total).length ≤ 68
  · rw [Text.cutChars, if_pos (by omega)]
    exact ⟨fun _ => .inl hroom, fun _ => (List.suffix_append _ _).isInfix⟩
  · rw [cut_shows_iff (by omega)]
    exact (or_iff_right hroom).symm

/-- **Footers and page numbers.** Every page ends with the footer for its number, and this shows the
number exactly if the name leaves it room, or itself holds the text. -/
theorem paginate_numbered (r : Report) (i : Fin (paginate r).length) :
    let foot := footer r.company (i + 1) (paginate r).length
    (paginate r)[i].lines.getLast? = some foot ∧ foot.style = .footer ∧
    (foot.Shows (pageMark (i + 1) (paginate r).length) ↔
      r.company.length + (count (i + 1)).length + (count (paginate r).length).length ≤ 68 ∨
      (pageMark (i + 1) (paginate r).length).toList <:+: r.company.toList.take (lineWidth - 1)) := by
  intro foot
  refine ⟨?_, rfl, footer_shows_iff r.company (i + 1) (paginate r).length⟩
  have hi : (paginate r)[(i : Nat)]? = some (paginate r)[i] := List.getElem?_eq_getElem i.isLt
  rw [getElem?_paginate] at hi
  obtain ⟨part, -, hpage⟩ := Option.map_eq_some_iff.mp hi
  rw [← hpage]
  exact List.getLast?_concat

/-! ## A name that takes the room of the page number -/

/-- A report without steps, for a company whose name has 67 letters. -/
def longNamed : Report :=
  Report.ofRun ⟨"op-live-0001", "Live", "acme", .finished, none, none, []⟩ (.unavailable "n/a")
    (.ofList (List.replicate 67 'A')) ⟨20000, Instant.secondOf 43200, Instant.nanoOf 0⟩

/-- Its one page ends with a footer that breaks off before the number of pages. -/
theorem longName_unnumbered : ∃ page foot, paginate longNamed = [page] ∧
    page.lines.getLast? = some foot ∧ foot.style = .footer ∧ ¬ foot.Shows (pageMark 1 1) := by
  have hcompany : longNamed.company = .ofList (List.replicate 67 'A') := rfl
  have hshort : (flatten longNamed).length ≤ linesPerPage := by decide +kernel
  refine ⟨_, _, paginate_of_short hshort, List.getLast?_concat, rfl, ?_⟩
  rw [footer_shows_iff, hcompany, String.length_ofList, List.length_replicate]
  rintro (hroom | hname)
  · revert hroom
    decide
  · have hmem := List.mem_of_mem_take (hname.subset (mem_pageMark 1 1))
    rw [String.toList_ofList] at hmem
    exact absurd (List.eq_of_mem_replicate hmem) (by decide)

end Layout
end AfterAction
