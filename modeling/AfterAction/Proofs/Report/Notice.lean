import AfterAction.Proofs.Report.Marks
import AfterAction.Proofs.Report.Naming
import AfterAction.Report.Pdf

/-!
# How a partial report shows

A partial report is marked twice, in the document by a notice in the alert colour and in the name of
its file by `_partial` at the end. Neither mark comes about in another way: the only other line in
that colour begins with another letter, on the page as well as in the layout, and what stands before
the end of a file's name is a stamp, which has no letters.
-/

namespace AfterAction

/-! ## The notice -/

namespace Layout

/-- The other line in the alert colour. -/
def IsUnavailable (l : Line) : Prop :=
  ∃ reason, l = line .warning ("Detection correlation unavailable: " ++ reason)

theorem warning_header {r : Report} {l : Line} (hl : l ∈ header r) (hw : l.style = .warning) :
    l = notice ∧ r.isPartial = true := by
  rw [header_eq] at hl
  rcases List.mem_cons.mp hl with rfl | hl
  · cases hw
  rcases List.mem_cons.mp hl with rfl | hl
  · cases hw
  rcases List.mem_append.mp hl with hl | hl
  · split at hl
    · rename_i hpartial
      exact ⟨List.mem_singleton.mp hl, hpartial⟩
    · cases hl
  · rw [List.mem_singleton.mp hl] at hw
    cases hw

/-- No other section than the detection coverage warns. -/
theorem warning_sections {r : Report} {l : Line} (hl : l ∈ (sections r).flatten)
    (hw : l.style = .warning) : IsUnavailable l := by
  simp only [sections, List.flatten_cons, List.flatten_nil, List.append_nil, List.mem_append] at hl
  rcases hl with hl | hl | hl | hl | hl
  · simp only [details, List.mem_append, List.mem_cons, List.mem_map, List.not_mem_nil,
      or_false] at hl
    obtain (rfl | ⟨entry, -, rfl⟩) | rfl := hl <;> cases hw
  · simp only [executiveSummary, List.mem_cons, List.not_mem_nil, or_false] at hl
    obtain rfl | rfl | rfl | rfl := hl <;> cases hw
  · unfold tacticCoverage at hl
    split at hl
    · simp only [List.mem_append, List.mem_cons, List.not_mem_nil, or_false] at hl
      obtain (rfl | rfl) | rfl := hl <;> cases hw
    · simp only [List.mem_append, List.mem_cons, List.mem_map, List.not_mem_nil, or_false] at hl
      obtain (rfl | rfl | ⟨coverage, -, rfl⟩) | rfl := hl <;> cases hw
  · unfold detectionCoverage at hl
    split at hl
    · simp only [List.mem_append, List.mem_cons, List.not_mem_nil, or_false] at hl
      obtain (rfl | rfl | rfl) | rfl := hl <;> cases hw
    · rename_i reason _
      simp only [List.mem_append, List.mem_cons, List.not_mem_nil, or_false] at hl
      obtain (rfl | rfl) | rfl := hl
      · cases hw
      · exact ⟨reason, rfl⟩
      · cases hw
  · unfold techniqueDetails at hl
    split at hl
    · simp only [List.mem_cons, List.not_mem_nil, or_false] at hl
      obtain rfl | rfl := hl <;> cases hw
    · simp only [List.mem_cons, List.mem_map] at hl
      obtain rfl | rfl | ⟨row, -, rfl⟩ := hl <;> cases hw

theorem warning_flatten {r : Report} {l : Line} (hl : l ∈ flatten r) (hw : l.style = .warning) :
    (l = notice ∧ r.isPartial = true) ∨ IsUnavailable l := by
  rw [flatten_eq] at hl
  rcases List.mem_append.mp hl with hl | hl
  · exact .inl (warning_header hl hw)
  · exact .inr (warning_sections hl hw)

theorem notice_mem {r : Report} (h : r.isPartial = true) : notice ∈ flatten r :=
  List.mem_of_getElem? ((notice_iff r 2).mpr ⟨rfl, h⟩)

end Layout

namespace Drawing

/-- A page shows all its lines. -/
theorem mem_marks {l : Line} {ls : List Line} (h : l ∈ ls) (y : Int) :
    ∃ z, markOf l z ∈ List.zipWith markOf ls (heights ls y) := by
  induction ls generalizing y with
  | nil => cases h
  | cons first rest ih =>
    rw [heights, List.zipWith_cons_cons]
    rcases List.mem_cons.mp h with rfl | h
    · exact ⟨_, List.mem_cons_self⟩
    · obtain ⟨z, hz⟩ := ih h (y - advance first.style)
      exact ⟨z, List.mem_cons_of_mem _ hz⟩

/-- And it shows nothing else. -/
theorem line_of_mem_marks {ls : List Line} {ys : List Int} {mark : Mark}
    (h : mark ∈ List.zipWith markOf ls ys) : ∃ l ∈ ls, ∃ y, mark = markOf l y := by
  induction ls generalizing ys with
  | nil => cases h
  | cons first rest ih =>
    cases ys with
    | nil => cases h
    | cons y ys =>
      rw [List.zipWith_cons_cons] at h
      rcases List.mem_cons.mp h with rfl | h
      · exact ⟨first, List.mem_cons_self, y, rfl⟩
      · obtain ⟨l, hl, hmark⟩ := ih h
        exact ⟨l, List.mem_cons_of_mem _ hl, hmark⟩

theorem style_of_alert {l : Line} {y : Int} (h : (markOf l y).colour = .alert) :
    l.style = .warning := by
  by_cases hw : l.style = .warning
  · exact hw
  · rw [markOf, if_neg hw] at h
    cases h

/-- Whatever the reason says, the line begins in another way than the notice. -/
theorem printableText_unavailable {l : Line} (h : Layout.IsUnavailable l) :
    printableText l.text ≠ Layout.partialNotice := by
  obtain ⟨reason, rfl⟩ := h
  intro he
  have hfirst := congrArg (List.head? ∘ String.toList) he
  simp only [Function.comp_apply, Layout.line, printableText, Text.cut, String.toList_ofList,
    List.head?_map] at hfirst
  rw [Text.head?_cutChars (by decide), String.toList_append,
    List.head?_append_of_ne_nil _ (by decide)] at hfirst
  revert hfirst
  decide

end Drawing

namespace Pdf

/-- A text stands on one of the pages, in the alert colour. -/
def Alerts (pdf : Pdf) (text : String) : Prop :=
  ∃ ops ∈ pdf.pages, ∃ marks, Drawing.marks? ops = some marks ∧
    ∃ mark ∈ marks, mark.text = text ∧ mark.colour = .alert

/-- The notice of a partial report stands in it. -/
def CarriesNotice (pdf : Pdf) : Prop := pdf.Alerts Layout.partialNotice

theorem carriesNotice_ofPages (r : Report) :
    (ofPages (Layout.paginate r)).CarriesNotice ↔ r.isPartial = true := by
  constructor
  · rintro ⟨ops, hops, marks, hmarks, mark, hmem, htext, hcolour⟩
    obtain ⟨page, hpage, rfl⟩ := List.mem_map.mp hops
    obtain ⟨part, number, total, hpart, hlines⟩ := Layout.mem_paginate hpage
    rw [Drawing.marks?_drawPage] at hmarks
    cases hmarks
    obtain ⟨l, hl, y, rfl⟩ := Drawing.line_of_mem_marks hmem
    have hwarning := Drawing.style_of_alert hcolour
    rw [hlines] at hl
    rcases List.mem_append.mp hl with hl | hl
    · rcases Layout.warning_flatten (Layout.mem_flatten_of_mem_parts hpart hl) hwarning with
        ⟨-, hpartial⟩ | hother
      · exact hpartial
      · exact absurd htext (Drawing.printableText_unavailable hother)
    · rw [List.mem_singleton.mp hl] at hwarning
      cases hwarning
  · intro hpartial
    have hmem := Layout.notice_mem hpartial
    rw [← Layout.flatMap_dropLast_paginate] at hmem
    obtain ⟨page, hpage, hl⟩ := List.mem_flatMap.mp hmem
    obtain ⟨z, hz⟩ := Drawing.mem_marks ((List.dropLast_sublist _).subset hl) Drawing.firstLine
    have hprinted : Drawing.printableText Layout.partialNotice = Layout.partialNotice := by decide
    exact ⟨_, List.mem_map_of_mem hpage, _, Drawing.marks?_drawPage page, _, hz, hprinted, rfl⟩

/-- **The document of a run** carries the notice exactly if the run has not finished. -/
theorem carriesNotice_render (company : String) (run : Run) (detections : Detections)
    (now : Instant) :
    (render company run detections now).CarriesNotice ↔ run.isFinished = false := by
  rw [render, carriesNotice_ofPages]
  simp [Report.ofRun, Run.isFinished]

end Pdf

/-! ## The name -/

namespace Registry

/-- How the files of partial reports end. -/
def partialEnding : List Char := "_partial.pdf".toList

/-- The path is one of a partial report, by its end. -/
def EndsPartial (path : String) : Prop := partialEnding <:+ path.toList

/-- Whatever stands before the stamp. -/
theorem partialEnding_iff (before : List Char) (now : Instant) (isPartial : Bool) :
    partialEnding <:+ before ++ '_' :: (now.stamp.toList ++ ending isPartial) ↔
      isPartial = true := by
  cases isPartial with
  | true =>
    refine iff_of_true ⟨before ++ '_' :: now.stamp.toList, ?_⟩ rfl
    rw [List.append_assoc, List.cons_append]
    rfl
  | false =>
    refine iff_of_false ?_ Bool.false_ne_true
    rintro ⟨front, hfront⟩
    have hwhole : front ++ "_partial".toList ++ ".pdf".toList =
        before ++ '_' :: now.stamp.toList ++ ".pdf".toList := by
      rw [List.append_assoc, List.append_assoc]
      exact hfront
    have hcut : front ++ "_partial".toList = before ++ '_' :: now.stamp.toList :=
      List.append_cancel_right hwhole
    -- the last character is a letter on the left, and of the stamp or the bar before it on the right
    have hlast : 'l' ∈ '_' :: now.stamp.toList := by
      have hl := congrArg List.getLast? hcut
      rw [List.getLast?_append_of_ne_nil _ (by decide),
        List.getLast?_append_of_ne_nil _ (List.cons_ne_nil _ _)] at hl
      exact List.mem_of_getLast? hl.symm
    rcases List.mem_cons.mp hlast with hbar | hstamp
    · cases hbar
    · exact absurd (Instant.stampChar_of_stamp hstamp) (by decide)

/-- **The file of a report** ends like one of a partial report exactly if it is one. -/
theorem endsPartial_path (directory runId : String) (now : Instant) (isPartial : Bool) :
    EndsPartial (Path.join directory (fileName runId now isPartial)) ↔ isPartial = true := by
  obtain ⟨lead, -, hjoin⟩ := Path.exists_lead_join directory
  have hpath : (Path.join directory (fileName runId now isPartial)).toList =
      (lead ++ ("report_".toList ++ runId.toList)) ++ '_' ::
        (now.stamp.toList ++ ending isPartial) := by
    rw [hjoin, String.toList_ofList, toList_fileName]
    simp only [List.append_assoc]
  rw [EndsPartial, hpath]
  exact partialEnding_iff _ now isPartial

end Registry
end AfterAction
