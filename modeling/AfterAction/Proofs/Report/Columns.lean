import AfterAction.Proofs.Report.Sheets
import AfterAction.Run.Wire

/-!
# The columns of the technique table

Cells are cut and filled up by characters, and so is the line; so every cell begins where it should,
however long the texts before it are, and the two last of a row, which are short words, are not
reached by a cut. What is drawn has one character for each of the line, so the columns stand where
they stood, and outcome and detection can be read off the page whatever the engine calls its
techniques.
-/

namespace AfterAction

namespace Layout

open Drawing

/-! ## Cells -/

/-- A text in a column: blanks fill it up, and what is too long is cut and marked. -/
structure Fills (width : Nat) (text cell : List Char) : Prop where
  length : cell.length = width
  short : text.length ≤ width → cell = text ++ List.replicate (width - text.length) ' '
  long : width < text.length → cell = text.take (width - 1) ++ ['~']

/-- The characters of a line from the first on, as many as the width asks for. -/
def cell (first width : Nat) (cs : List Char) : List Char := (cs.drop first).take width

variable {width : Nat} {text field cs rest : List Char}

theorem fills_padRight_cut (hwidth : 0 < width) (text : String) :
    Fills width text.toList (Text.padRight width (Text.cut width text)).toList := by
  rw [Text.padRight, Text.cut, String.toList_ofList, String.toList_ofList, Text.cutChars]
  split
  · rename_i hfits
    refine ⟨?_, fun _ => rfl, fun hlong => absurd hfits (Nat.not_le.mpr hlong)⟩
    rw [List.length_append, List.length_replicate]
    omega
  · rename_i hlong
    have hlength : (text.toList.take (width - 1) ++ ['~']).length = width := by
      rw [List.length_append, List.length_take, List.length_singleton]
      omega
    rw [hlength, Nat.sub_self, List.replicate_zero, List.append_nil]
    exact ⟨hlength, fun hfits => absurd hfits hlong, fun _ => rfl⟩

/-- A word that fits stands in its column uncut. -/
theorem fills_padRight {text : String} (h : text.toList.length ≤ width) :
    Fills width text.toList (Text.padRight width text).toList := by
  rw [Text.padRight, String.toList_ofList]
  refine ⟨?_, fun _ => rfl, fun hlong => absurd h (Nat.not_le.mpr hlong)⟩
  rw [List.length_append, List.length_replicate]
  omega

theorem cell_append (h : field.length = width) : cell 0 width (field ++ rest) = field := by
  rw [cell, List.drop_zero, ← h, List.take_left]

/-- Behind a field and the blank after it, positions are counted anew. -/
theorem drop_append_cons (h : field.length = width) (first : Nat) :
    (field ++ ' ' :: rest).drop (width + 1 + first) = rest.drop first := by
  rw [← h, List.append_cons, ← List.drop_drop]
  congr 1
  exact List.drop_left' (by rw [List.length_append, List.length_singleton])

theorem cell_append_cons (h : field.length = width) (first size : Nat) :
    cell (width + 1 + first) size (field ++ ' ' :: rest) = cell first size rest := by
  rw [cell, drop_append_cons h, cell]

theorem getElem?_append_cons (h : field.length = width) :
    (field ++ ' ' :: rest)[width]? = some ' ' := by
  rw [← h, List.getElem?_append_right (Nat.le_refl _), Nat.sub_self, List.getElem?_cons_zero]

theorem getElem?_append_cons_later (h : field.length = width) (i : Nat) :
    (field ++ ' ' :: rest)[width + 1 + i]? = rest[i]? := by
  rw [← List.head?_drop, drop_append_cons h, List.head?_drop]

/-! ## Rows -/

/-- The cells of a row, and where they stand. -/
structure InColumns (row : TechniqueRow) (cs : List Char) : Prop where
  techniqueId : Fills 10 row.techniqueId.toList (cell 0 10 cs)
  techniqueName : Fills 30 row.techniqueName.toList (cell 11 30 cs)
  tactic : Fills 22 row.tactic.toList (cell 42 22 cs)
  outcome : cell 65 8 cs =
    row.outcome.name.toList ++ List.replicate (8 - row.outcome.name.toList.length) ' '
  detection : cs.drop 74 = row.detection.toList
  blanks : ∀ i ∈ [10, 41, 64, 73], cs[i]? = some ' '

theorem length_outcome_le (outcome : Outcome) : outcome.name.toList.length ≤ 8 := by
  cases outcome <;> decide

/-- Four fields and their blanks, and what is left of the line. -/
theorem inColumns_of_fields {row : TechniqueRow} {id name tactic outcome : List Char}
    (hid : Fills 10 row.techniqueId.toList id) (hname : Fills 30 row.techniqueName.toList name)
    (htactic : Fills 22 row.tactic.toList tactic)
    (houtcome : Fills 8 row.outcome.name.toList outcome) :
    InColumns row (id ++ ' ' :: (name ++ ' ' :: (tactic ++ ' ' ::
      (outcome ++ ' ' :: row.detection.toList)))) where
  techniqueId := (cell_append hid.length).symm ▸ hid
  techniqueName := by
    rw [cell_append_cons hid.length 0, cell_append hname.length]
    exact hname
  tactic := by
    rw [cell_append_cons hid.length 31, cell_append_cons hname.length 0,
      cell_append htactic.length]
    exact htactic
  outcome := by
    rw [cell_append_cons hid.length 54, cell_append_cons hname.length 23,
      cell_append_cons htactic.length 0, cell_append houtcome.length]
    exact houtcome.short (length_outcome_le row.outcome)
  detection := by
    rw [drop_append_cons hid.length 63, drop_append_cons hname.length 32,
      drop_append_cons htactic.length 9, drop_append_cons houtcome.length 0, List.drop_zero]
  blanks i hi := by
    simp only [List.mem_cons, List.not_mem_nil, or_false] at hi
    rcases hi with rfl | rfl | rfl | rfl
    · exact getElem?_append_cons hid.length
    · rw [getElem?_append_cons_later hid.length 30]
      exact getElem?_append_cons hname.length
    · rw [getElem?_append_cons_later hid.length 53, getElem?_append_cons_later hname.length 22]
      exact getElem?_append_cons htactic.length
    · rw [getElem?_append_cons_later hid.length 62, getElem?_append_cons_later hname.length 31,
        getElem?_append_cons_later htactic.length 8]
      exact getElem?_append_cons houtcome.length

/-! ## Short words -/

/-- Outcome and detection of a row, read off the places where they stand. -/
def verdict? (cs : List Char) : Option (Outcome × String) :=
  (Outcome.byName.lookup (.ofList ((cell 65 8 cs).takeWhile (· ≠ ' ')))).map
    (·, .ofList (cs.drop 74))

theorem InColumns.verdict?_eq {row : TechniqueRow} (h : InColumns row cs) :
    verdict? cs = some (row.outcome, row.detection) := by
  have houtcome : Outcome.byName.lookup (.ofList ((cell 65 8 cs).takeWhile (· ≠ ' '))) =
      some row.outcome := by
    rw [h.outcome]
    cases row.outcome <;> decide
  rw [verdict?, houtcome, h.detection, String.ofList_toList]
  rfl

def labels : List String := ["detected", "evaded", "pending", "unavailable"]

theorem label_mem_labels (detections : Detections) (techniqueId : String) :
    detections.label techniqueId ∈ labels := by
  unfold Detections.label
  split
  · cases detections.find? techniqueId with
    | none => decide
    | some r =>
      rw [Option.map_some, Option.getD_some]
      cases r.status <;> decide
  · decide

theorem length_le_of_mem_labels : ∀ label ∈ labels, label.toList.length ≤ 21 := by decide

theorem printableText_of_mem_labels : ∀ label ∈ labels, printableText label = label := by decide

/-- A row with one of the labels is a line in columns. -/
theorem inColumns_techniqueLine {row : TechniqueRow} (h : row.detection ∈ labels) :
    InColumns row (techniqueLine row).text.toList := by
  have hid := fills_padRight_cut (by decide : 0 < 10) row.techniqueId
  have hname := fills_padRight_cut (by decide : 0 < 30) row.techniqueName
  have htactic := fills_padRight_cut (by decide : 0 < 22) row.tactic
  have houtcome := fills_padRight (length_outcome_le row.outcome)
  have hlabel := length_le_of_mem_labels row.detection h
  have hcells : (techniqueCells (Text.cut 10 row.techniqueId) (Text.cut 30 row.techniqueName)
      (Text.cut 22 row.tactic) row.outcome.name row.detection).toList =
      (Text.padRight 10 (Text.cut 10 row.techniqueId)).toList ++ ' ' ::
        ((Text.padRight 30 (Text.cut 30 row.techniqueName)).toList ++ ' ' ::
          ((Text.padRight 22 (Text.cut 22 row.tactic)).toList ++ ' ' ::
            ((Text.padRight 8 row.outcome.name).toList ++ ' ' :: row.detection.toList))) := by
    simp [techniqueCells]
  rw [techniqueLine, line_of_fits, hcells]
  · exact inColumns_of_fields hid hname htactic houtcome
  · rw [← String.length_toList, hcells]
    simp only [List.length_append, List.length_cons, hid.length, hname.length, htactic.length,
      houtcome.length, lineWidth]
    omega

/-! ## Drawn rows -/

theorem toList_printableText (s : String) :
    (printableText s).toList = s.toList.map printable := String.toList_ofList

theorem cell_map (f : Char → Char) (first width : Nat) (cs : List Char) :
    cell first width (cs.map f) = (cell first width cs).map f := by
  rw [cell, cell, ← List.map_drop, ← List.map_take]

/-- What fills a column up and marks a cut is drawn as it is. -/
theorem Fills.printable {cell : List Char} (h : Fills width text cell) :
    Fills width (text.map printable) (cell.map printable) where
  length := by rw [List.length_map, h.length]
  short hfits := by
    rw [List.length_map] at hfits
    rw [h.short hfits, List.map_append, List.map_replicate, List.length_map]
    rfl
  long hlong := by
    rw [List.length_map] at hlong
    rw [h.long hlong, List.map_append, List.map_take]
    rfl

/-- A row with its texts as they are drawn. -/
def shownRow (row : TechniqueRow) : TechniqueRow :=
  { row with
    techniqueId := printableText row.techniqueId
    techniqueName := printableText row.techniqueName
    tactic := printableText row.tactic }

theorem InColumns.shown {row : TechniqueRow} (h : InColumns row cs) (hlabel : row.detection ∈ labels) :
    InColumns (shownRow row) (cs.map printable) where
  techniqueId := by
    rw [cell_map, shownRow, toList_printableText]
    exact h.techniqueId.printable
  techniqueName := by
    rw [cell_map, shownRow, toList_printableText]
    exact h.techniqueName.printable
  tactic := by
    rw [cell_map, shownRow, toList_printableText]
    exact h.tactic.printable
  outcome := by
    rw [cell_map, h.outcome, shownRow]
    cases row.outcome <;> decide
  detection := by
    rw [← List.map_drop, h.detection, ← toList_printableText,
      printableText_of_mem_labels row.detection hlabel]
    rfl
  blanks i hi := by
    rw [List.getElem?_map, h.blanks i hi]
    rfl

/-- A row as it is laid out and as it is drawn. -/
structure ShowsRow (row : TechniqueRow) (l : Line) : Prop where
  style : l.style = .table
  columns : InColumns row l.text.toList
  verdict : verdict? l.text.toList = some (row.outcome, row.detection)
  drawn : List.Forall₂ ShownAs l.text.toList (shown l).text.toList
  drawnColumns : InColumns (shownRow row) (shown l).text.toList
  drawnVerdict : verdict? (shown l).text.toList = some (row.outcome, row.detection)

theorem showsRow_techniqueLine {row : TechniqueRow} (h : row.detection ∈ labels) :
    ShowsRow row (techniqueLine row) := by
  have hcolumns := inColumns_techniqueLine h
  have hdrawn : InColumns (shownRow row) (shown (techniqueLine row)).text.toList := by
    rw [shown, toList_printableText]
    exact hcolumns.shown h
  exact ⟨rfl, hcolumns, hcolumns.verdict?_eq, forall₂_printableText _, hdrawn, hdrawn.verdict?_eq⟩

/-! ## Tables -/

/-- What stands under the last heading of a document, its footers left out. -/
def tableLines (pages : List (List Line)) : List Line :=
  (pages.flatMap List.dropLast).rtakeWhile (·.style ≠ .heading)

theorem tableLines_paginate (r : Report) :
    tableLines ((paginate r).map (·.lines)) = techniqueTable r.rows := by
  rw [tableLines, List.flatMap_map, ← flatten_table, ← flatMap_dropLast_paginate]

/-- Drawing keeps styles, so the table is drawn line by line. -/
theorem tableLines_shown (pages : List (List Line)) :
    tableLines (pages.map (·.map shown)) = (tableLines pages).map shown := by
  have hlines : (pages.map (·.map shown)).flatMap List.dropLast =
      (pages.flatMap List.dropLast).map shown := by
    rw [List.flatMap_map, List.map_flatMap]
    exact List.flatMap_congr fun page _ => List.map_dropLast.symm
  rw [tableLines, hlines, tableLines, List.rtakeWhile, List.rtakeWhile, ← List.map_reverse,
    List.takeWhile_map, ← List.map_reverse]
  rfl

theorem exists_techniqueTable (rows : List TechniqueRow) :
    ∃ head, techniqueTable rows = head :: rows.map techniqueLine := by
  cases rows with
  | nil => exact ⟨nothingExecuted, rfl⟩
  | cons row rows => exact ⟨_, rfl⟩

/-- **Columns stay aligned.** Under the head of the technique table stands a line for each step, in
columns, and it is drawn in the same columns. -/
theorem technique_columns (company : String) (run : Run) (detections : Detections) (now : Instant) :
    ∃ head lines drawn,
      tableLines ((paginate (Report.ofRun run detections company now)).map (·.lines)) =
        head :: lines ∧
      (Pdf.render company run detections now).pages.mapM lines? = some drawn ∧
      tableLines drawn = shown head :: lines.map shown ∧
      List.Forall₂ (fun s l => ShowsRow (TechniqueRow.ofStep detections s) l) run.steps lines := by
  have hrows : (Report.ofRun run detections company now).rows =
      run.steps.map (TechniqueRow.ofStep detections) := rfl
  obtain ⟨head, htable⟩ := exists_techniqueTable (Report.ofRun run detections company now).rows
  have hlines := (tableLines_paginate _).trans htable
  refine ⟨head, _, _, hlines, Pdf.mapM_lines?_ofPages _, ?_, ?_⟩
  · rw [← List.map_cons, ← hlines, ← tableLines_shown, List.map_map]
    rfl
  · rw [hrows, List.map_map, List.forall₂_map_right_iff, List.forall₂_same]
    exact fun s _ => showsRow_techniqueLine (label_mem_labels detections s.techniqueId)

end Layout
end AfterAction
