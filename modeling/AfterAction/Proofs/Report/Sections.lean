import AfterAction.Report.Layout
import Mathlib.Data.List.DropRight

/-!
# The lines of a report

A report's lines are its header, where the title and the notice of a partial report stand, and five
sections, each of them a heading with plain lines under it. So the headings are the same five for
every report, the notice stands in one place or nowhere, and after the last heading there is the
technique table and nothing else.
-/

namespace AfterAction

/-- A cut does not reach the first character. -/
theorem Text.head?_cutChars {width : Nat} (h : 1 < width) (cs : List Char) :
    (Text.cutChars width cs).head? = cs.head? := by
  unfold Text.cutChars
  split
  · rfl
  · rename_i hlong
    obtain ⟨n, hn⟩ : ∃ n, width - 1 = n + 1 := ⟨width - 2, by omega⟩
    cases cs with
    | nil => exact absurd (Nat.zero_le width) hlong
    | cons c rest => rw [hn, List.take_succ_cons]; rfl

namespace Layout

theorem line_length_le (style : Style) (text : String) :
    (line style text).text.length ≤ lineWidth := by
  rw [line, Text.cut, String.length_ofList]
  exact Text.length_cutChars_le lineWidth text.toList (by decide)

theorem line_of_fits {text : String} (style : Style) (h : text.length ≤ lineWidth) :
    line style text = ⟨style, text⟩ := by
  rw [line, Text.cut, Text.cutChars, if_pos (by rwa [String.length_toList]), String.ofList_toList]

/-! ## Sections -/

/-- The notice that a report is partial, where it is one. -/
def notice : Line := ⟨.warning, partialNotice⟩

/-- Stands out in no way: no title, heading or footer, and not the notice. -/
structure IsPlain (l : Line) : Prop where
  no_title : l.style ≠ .title
  no_heading : l.style ≠ .heading
  no_footer : l.style ≠ .footer
  no_notice : l ≠ notice
  fits : l.text.length ≤ lineWidth

theorem isPlain_body (text : String) : IsPlain (line .body text) :=
  ⟨nofun, nofun, nofun, fun h => (nomatch congrArg Line.style h), line_length_le _ _⟩

theorem isPlain_table (text : String) : IsPlain (line .table text) :=
  ⟨nofun, nofun, nofun, fun h => (nomatch congrArg Line.style h), line_length_le _ _⟩

/-- A warning of any length that begins in another way than the notice. -/
theorem isPlain_warning {text : String} (h : text.toList.head? ≠ partialNotice.toList.head?) :
    IsPlain (line .warning text) := by
  refine ⟨nofun, nofun, nofun, fun heq => h ?_, line_length_le _ _⟩
  have htext : Text.cut lineWidth text = partialNotice := congrArg Line.text heq
  rw [← htext, Text.cut, String.toList_ofList, Text.head?_cutChars (by decide)]

/-- A heading and what stands under it. -/
def IsSection (title : String) (ls : List Line) : Prop :=
  ∃ under, ls = ⟨.heading, title⟩ :: under ∧ ∀ l ∈ under, IsPlain l

/-- A section that a blank line closes. -/
theorem isSection_closed {title : String} {under : List Line} (h : ∀ l ∈ under, IsPlain l) :
    IsSection title (⟨.heading, title⟩ :: under ++ [blank]) := by
  refine ⟨under ++ [blank], rfl, fun l hl => ?_⟩
  rcases List.mem_append.mp hl with hl | hl
  · exact h l hl
  · rw [List.mem_singleton.mp hl]
    exact isPlain_body ""

theorem isSection_details (r : Report) : IsSection "Operation Details" (details r) := by
  refine isSection_closed fun l hl => ?_
  obtain ⟨entry, -, rfl⟩ := List.mem_map.mp hl
  exact isPlain_table _

theorem isSection_executiveSummary (s : RunStatistics) :
    IsSection "Executive Summary" (executiveSummary s) := by
  refine ⟨_, rfl, fun l hl => ?_⟩
  simp only [List.mem_cons, List.not_mem_nil, or_false] at hl
  rcases hl with rfl | rfl | rfl <;> exact isPlain_body _

theorem isSection_tacticCoverage (coverage : List TacticCoverage) :
    IsSection "Tactic Coverage" (tacticCoverage coverage) := by
  refine isSection_closed fun l hl => ?_
  split at hl
  · rw [List.mem_singleton.mp hl]
    exact isPlain_body _
  · rcases List.mem_cons.mp hl with rfl | hl
    · exact isPlain_table _
    · obtain ⟨c, -, rfl⟩ := List.mem_map.mp hl
      exact isPlain_table _

theorem isSection_detectionCoverage (detection : DetectionSection) :
    IsSection "Detection Coverage" (detectionCoverage detection) := by
  refine isSection_closed fun l hl => ?_
  cases detection with
  | summary s =>
    simp only [List.mem_cons, List.not_mem_nil, or_false] at hl
    rcases hl with rfl | rfl <;> exact isPlain_body _
  | unavailable reason =>
    rw [List.mem_singleton.mp hl]
    refine isPlain_warning ?_
    rw [String.toList_append, List.head?_append_of_ne_nil _ (by decide)]
    decide

/-- What stands under the last heading. -/
def techniqueTable (rows : List TechniqueRow) : List Line :=
  if rows.isEmpty then [nothingExecuted]
  else line .table (techniqueCells "ID" "Technique" "Tactic" "Result" "Detection") ::
    rows.map techniqueLine

theorem isPlain_techniqueTable (rows : List TechniqueRow) :
    ∀ l ∈ techniqueTable rows, IsPlain l := by
  intro l hl
  unfold techniqueTable at hl
  split at hl
  · rw [List.mem_singleton.mp hl]
    exact isPlain_body _
  · rcases List.mem_cons.mp hl with rfl | hl
    · exact isPlain_table _
    · obtain ⟨row, -, rfl⟩ := List.mem_map.mp hl
      exact isPlain_table _

theorem techniqueDetails_eq (rows : List TechniqueRow) :
    techniqueDetails rows = ⟨.heading, "Technique Details"⟩ :: techniqueTable rows := rfl

/-! ## All lines -/

def sectionTitles : List String :=
  ["Operation Details", "Executive Summary", "Tactic Coverage", "Detection Coverage",
    "Technique Details"]

def sections (r : Report) : List (List Line) :=
  [details r, executiveSummary r.statistics, tacticCoverage r.coverage,
    detectionCoverage r.detection, techniqueDetails r.rows]

theorem sections_titled (r : Report) : List.Forall₂ IsSection sectionTitles (sections r) :=
  .cons (isSection_details r) <| .cons (isSection_executiveSummary r.statistics) <|
    .cons (isSection_tacticCoverage r.coverage) <| .cons (isSection_detectionCoverage r.detection) <|
    .cons ⟨_, techniqueDetails_eq r.rows, isPlain_techniqueTable r.rows⟩ .nil

theorem flatten_eq (r : Report) : flatten r = header r ++ (sections r).flatten := by
  simp only [flatten, sections, List.flatten_cons, List.flatten_nil, List.append_nil,
    List.append_assoc]

/-- A line of a section is its heading or plain. -/
theorem mem_sections {titles : List String} {ss : List (List Line)}
    (h : List.Forall₂ IsSection titles ss) {l : Line} (hl : l ∈ ss.flatten) :
    IsPlain l ∨ ∃ title ∈ titles, l = ⟨.heading, title⟩ := by
  induction h with
  | nil => cases hl
  | cons hsection _ ih =>
    obtain ⟨under, rfl, hunder⟩ := hsection
    rw [List.flatten_cons, List.mem_append] at hl
    rcases hl with hl | hl
    · rcases List.mem_cons.mp hl with rfl | hl
      · exact .inr ⟨_, List.mem_cons_self, rfl⟩
      · exact .inl (hunder l hl)
    · exact (ih hl).imp id fun ⟨title, ht, he⟩ => ⟨title, List.mem_cons_of_mem _ ht, he⟩

theorem headings_sections {titles : List String} {ss : List (List Line)}
    (h : List.Forall₂ IsSection titles ss) :
    ss.flatten.filter (·.style = .heading) = titles.map (Line.mk .heading) := by
  induction h with
  | nil => rfl
  | cons hsection _ ih =>
    obtain ⟨under, rfl, hunder⟩ := hsection
    have hnone : under.filter (·.style = .heading) = [] :=
      List.filter_eq_nil_iff.mpr fun l hl => by simpa using (hunder l hl).no_heading
    rw [List.flatten_cons, List.filter_append, List.filter_cons_of_pos (by simp), hnone, ih]
    rfl

theorem header_eq (r : Report) :
    header r = line .title r.title :: line .body r.company ::
      ((if r.isPartial then [notice] else []) ++ [blank]) := by
  have hnotice : line .warning partialNotice = notice := line_of_fits .warning (by decide)
  rw [header, hnotice]
  rfl

/-- A line under the title is the notice or plain. -/
theorem mem_header {r : Report} {l : Line} (hl : l ∈ header r) :
    l = line .title r.title ∨ l = notice ∨ IsPlain l := by
  rw [header_eq] at hl
  rcases List.mem_cons.mp hl with rfl | hl
  · exact .inl rfl
  rcases List.mem_cons.mp hl with rfl | hl
  · exact .inr (.inr (isPlain_body _))
  rcases List.mem_append.mp hl with hl | hl
  · split at hl
    · exact .inr (.inl (List.mem_singleton.mp hl))
    · cases hl
  · rw [List.mem_singleton.mp hl]
    exact .inr (.inr (isPlain_body ""))

/-- Every line of a report fits its page, and none of them is a footer. -/
theorem flatten_fits {r : Report} {l : Line} (hl : l ∈ flatten r) :
    l.style ≠ .footer ∧ l.text.length ≤ lineWidth := by
  rw [flatten_eq, List.mem_append] at hl
  rcases hl with hl | hl
  · rcases mem_header hl with rfl | rfl | hplain
    · exact ⟨nofun, line_length_le _ _⟩
    · exact ⟨nofun, by decide⟩
    · exact ⟨hplain.no_footer, hplain.fits⟩
  · rcases mem_sections (sections_titled r) hl with hplain | ⟨title, ht, rfl⟩
    · exact ⟨hplain.no_footer, hplain.fits⟩
    · have hfit : ∀ title ∈ sectionTitles, title.length ≤ lineWidth := by decide
      exact ⟨nofun, hfit title ht⟩

theorem flatten_headings (r : Report) :
    (flatten r).filter (·.style = .heading) = sectionTitles.map (Line.mk .heading) := by
  have hheader : (header r).filter (·.style = .heading) = [] := by
    refine List.filter_eq_nil_iff.mpr fun l hl => ?_
    rcases mem_header hl with rfl | rfl | hplain
    · simp [line]
    · simp [notice]
    · simpa using hplain.no_heading
  rw [flatten_eq, List.filter_append, hheader, headings_sections (sections_titled r)]
  rfl

/-- There is one title. -/
theorem flatten_titles (r : Report) :
    (flatten r).filter (·.style = .title) = [line .title r.title] := by
  have hheader : (header r).filter (·.style = .title) = [line .title r.title] := by
    rw [header_eq]
    cases r.isPartial <;> rfl
  have hrest : (sections r).flatten.filter (·.style = .title) = [] := by
    refine List.filter_eq_nil_iff.mpr fun l hl => ?_
    rcases mem_sections (sections_titled r) hl with hplain | ⟨title, -, rfl⟩
    · simpa using hplain.no_title
    · simp
  rw [flatten_eq, List.filter_append, hheader, hrest]
  rfl

/-- The notice stands under title and company, or it does not stand anywhere. -/
theorem notice_iff (r : Report) (i : Nat) :
    (flatten r)[i]? = some notice ↔ i = 2 ∧ r.isPartial = true := by
  have hrest : ∀ j : Nat, (blank :: (sections r).flatten)[j]? ≠ some notice := by
    intro j hj
    rcases List.mem_cons.mp (List.mem_of_getElem? hj) with he | hmem
    · exact (isPlain_body "").no_notice he.symm
    rcases mem_sections (sections_titled r) hmem with hplain | ⟨title, -, he⟩
    · exact hplain.no_notice rfl
    · cases congrArg Line.style he
  have htitle : line .title r.title ≠ notice := fun he => nomatch congrArg Line.style he
  have hcompany : line .body r.company ≠ notice := (isPlain_body r.company).no_notice
  have hlines : flatten r = line .title r.title :: line .body r.company ::
      ((if r.isPartial then [notice] else []) ++ blank :: (sections r).flatten) := by
    rw [flatten_eq, header_eq]
    simp
  rw [hlines]
  cases r.isPartial with
  | true =>
    match i with
    | 0 => simp [htitle]
    | 1 => simp [hcompany]
    | 2 => simp
    | j + 3 => simpa using hrest j
  | false =>
    match i with
    | 0 => simp [htitle]
    | 1 => simp [hcompany]
    | j + 2 => simpa using hrest j

/-- Under the last heading stands the technique table. -/
theorem flatten_table (r : Report) :
    (flatten r).rtakeWhile (·.style ≠ .heading) = techniqueTable r.rows := by
  obtain ⟨front, hfront⟩ : ∃ front,
      flatten r = front ++ ⟨.heading, "Technique Details"⟩ :: techniqueTable r.rows := ⟨_, rfl⟩
  have hunder : ∀ l ∈ (techniqueTable r.rows).reverse, decide (l.style ≠ .heading) = true :=
    fun l hl => by simpa using (isPlain_techniqueTable r.rows l (List.mem_reverse.mp hl)).no_heading
  rw [hfront, List.rtakeWhile, List.reverse_append, List.reverse_cons, List.append_assoc,
    List.takeWhile_append_of_pos hunder, List.singleton_append, List.takeWhile_cons_of_neg (by simp),
    List.append_nil, List.reverse_reverse]

end Layout
end AfterAction
