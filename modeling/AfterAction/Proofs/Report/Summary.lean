import AfterAction.Proofs.Correlation.Verdicts
import AfterAction.Proofs.FirstAppearance
import AfterAction.Report.Document

/-!
# The summary of a report and its technique table

The summary counts records, and the table looks the record of each step up by its technique id. A
technique has one record at most, so the lookup cannot pick another than the one that was counted,
and a step has none exactly if its technique id is malformed: such a row says `pending`, and the
summary leaves it out.
-/

namespace AfterAction

theorem DetectionStatus.name_inj {status status' : DetectionStatus}
    (h : status.name = status'.name) : status = status' := by
  cases status <;> cases status' <;> first | rfl | exact absurd h (by decide)

/-! ## Looking a record up -/

namespace Detections

variable {records : List DetectionRecord} {r : DetectionRecord} {id : String}
  {status : DetectionStatus}

/-- With one record for each technique, the first is the only one. -/
theorem find?_of_mem (hone : (records.map (·.techniqueId)).Nodup) (hr : r ∈ records) :
    (available records).find? r.techniqueId = some r := by
  show records.find? (·.techniqueId = r.techniqueId) = some r
  induction records with
  | nil => cases hr
  | cons first rest ih =>
    rw [List.map_cons, List.nodup_cons] at hone
    obtain ⟨hfresh, hrest⟩ := hone
    rcases List.mem_cons.mp hr with rfl | hr
    · exact List.find?_cons_of_pos (decide_eq_true rfl)
    · have hne : ¬ first.techniqueId = r.techniqueId := fun heq =>
        hfresh (heq ▸ List.mem_map_of_mem hr)
      rw [List.find?_cons_of_neg (by simpa using hne)]
      exact ih hrest hr

theorem find?_of_not_mem (h : id ∉ records.map (·.techniqueId)) :
    (available records).find? id = none := by
  refine List.find?_eq_none.mpr fun r hr => ?_
  intro heq
  exact h (of_decide_eq_true heq ▸ List.mem_map_of_mem hr)

/-- A label names the status of the technique's record, and is `pending` where there is none. -/
theorem label_iff (hone : (records.map (·.techniqueId)).Nodup) :
    (available records).label id = status.name ↔
      (∃ r ∈ records, r.techniqueId = id ∧ r.status = status) ∨
      (id ∉ records.map (·.techniqueId) ∧ status = .pending) := by
  have hlabel : (available records).label id =
      (((available records).find? id).map (·.status.name)).getD "pending" := if_pos rfl
  rw [hlabel]
  by_cases hid : id ∈ records.map (·.techniqueId)
  · obtain ⟨r, hr, rfl⟩ := List.mem_map.mp hid
    rw [find?_of_mem hone hr]
    constructor
    · intro hname
      exact .inl ⟨r, hr, rfl, DetectionStatus.name_inj hname⟩
    · rintro (⟨r', hr', hsame, rfl⟩ | ⟨hnot, -⟩)
      · have hfound := find?_of_mem hone hr'
        rw [hsame, find?_of_mem hone hr] at hfound
        cases hfound
        rfl
      · exact absurd hid hnot
  · rw [find?_of_not_mem hid]
    constructor
    · intro hname
      have hpending : DetectionStatus.pending.name = status.name := hname
      exact .inr ⟨hid, (DetectionStatus.name_inj hpending).symm⟩
    · rintro (⟨r, hr, rfl, -⟩ | ⟨-, rfl⟩)
      · exact absurd (List.mem_map_of_mem hr) hid
      · rfl

/-- The techniques of the records with a status. -/
def techniquesWith (records : List DetectionRecord) (status : DetectionStatus) : Finset String :=
  ((records.filter (·.status = status)).map (·.techniqueId)).toFinset

theorem mem_techniquesWith : id ∈ techniquesWith records status ↔
    ∃ r ∈ records, r.techniqueId = id ∧ r.status = status := by
  simp only [techniquesWith, List.mem_toFinset, List.mem_map, List.mem_filter, decide_eq_true_eq]
  constructor
  · rintro ⟨r, ⟨hr, hs⟩, hid⟩
    exact ⟨r, hr, hid, hs⟩
  · rintro ⟨r, hr, hid, hs⟩
    exact ⟨r, ⟨hr, hs⟩, hid⟩

/-- With one record for each technique, counting records is counting techniques. -/
theorem card_techniquesWith (hone : (records.map (·.techniqueId)).Nodup) :
    (techniquesWith records status).card = records.countP (·.status = status) := by
  have hfiltered := hone.sublist ((List.filter_sublist (p := (·.status = status))).map _)
  rw [techniquesWith, List.toFinset_card_of_nodup hfiltered, List.length_map,
    List.countP_eq_length_filter]

theorem countP_statuses (records : List DetectionRecord) :
    records.countP (·.status = .detected) + records.countP (·.status = .evaded) +
      records.countP (·.status = .pending) = records.length := by
  induction records with
  | nil => rfl
  | cons r rest ih =>
    rw [List.length_cons, List.countP_cons, List.countP_cons, List.countP_cons]
    cases r.status <;> simp <;> omega

end Detections

/-! ## The two views of a report -/

namespace Report

open Evidence

variable {run : Run} {evidence : List Evidence} {window : Nat} {now : Instant} {id : String}

/-- The techniques in the rows with a label. -/
def labelled (report : Report) (label : String) : Finset String :=
  ((report.rows.filter (·.detection = label)).map (·.techniqueId)).toFinset

/-- There is a row for each step, in their order. -/
def HasRowPerStep (report : Report) (run : Run) : Prop :=
  report.rows.map (fun r => (r.techniqueId, r.techniqueName, r.tactic, r.outcome)) =
    run.steps.map fun s => (s.techniqueId, s.techniqueName.getD "-", s.tactic, s.outcome)

theorem hasRowPerStep_ofRun (run : Run) (detections : Detections) (company : String)
    (generatedAt : Instant) : (ofRun run detections company generatedAt).HasRowPerStep run := by
  rw [HasRowPerStep, ofRun, List.map_map]
  rfl

theorem mem_labelled_ofRun {detections : Detections} {company label : String}
    {generatedAt : Instant} : id ∈ (ofRun run detections company generatedAt).labelled label ↔
      (∃ s ∈ run.steps, s.techniqueId = id) ∧ detections.label id = label := by
  simp only [labelled, ofRun, List.mem_toFinset, List.mem_map, List.mem_filter,
    decide_eq_true_eq]
  constructor
  · rintro ⟨r, ⟨⟨s, hs, rfl⟩, hlabel⟩, rfl⟩
    exact ⟨⟨s, hs, rfl⟩, hlabel⟩
  · rintro ⟨⟨s, hs, rfl⟩, hlabel⟩
    exact ⟨_, ⟨⟨s, hs, rfl⟩, hlabel⟩, rfl⟩

theorem nodup_techniqueIds (run : Run) (evidence : List Evidence) (window : Nat) (now : Instant) :
    ((classify run evidence window now).records.map (·.techniqueId)).Nodup := by
  rw [techniqueIds_classify]
  exact nodup_eraseDups _

/-- Of the steps with a technique id, those labelled with a status have a record with it. -/
theorem labelled_wellFormed (run : Run) (evidence : List Evidence) (window : Nat) (now : Instant)
    (company : String) (generatedAt : Instant) (status : DetectionStatus) :
    ((ofRun run (classify run evidence window now) company generatedAt).labelled
        status.name).filter (Technique.wellFormed · = true) =
      Detections.techniquesWith (classify run evidence window now).records status := by
  have hone := nodup_techniqueIds run evidence window now
  ext id
  rw [Finset.mem_filter, mem_labelled_ofRun, Detections.mem_techniquesWith]
  constructor
  · rintro ⟨⟨hstep, hlabel⟩, hwell⟩
    rcases (Detections.label_iff hone).mp hlabel with hrecord | ⟨hnone, -⟩
    · exact hrecord
    · rw [techniqueIds_classify] at hnone
      exact absurd (mem_executed.mpr ⟨hwell, hstep⟩) hnone
  · intro hrecord
    have hsome := hrecord
    obtain ⟨r, hr, rfl, -⟩ := hsome
    obtain ⟨hwell, hstep⟩ := mem_executed.mp (executed_of_record hr)
    exact ⟨⟨hstep, (Detections.label_iff hone).mpr (.inl hrecord)⟩, hwell⟩

/-- Only a row labelled `pending` can have a malformed technique id. -/
theorem labelled_settled (run : Run) (evidence : List Evidence) (window : Nat) (now : Instant)
    (company : String) (generatedAt : Instant) (status : DetectionStatus)
    (hsettled : status ≠ .pending) :
    (ofRun run (classify run evidence window now) company generatedAt).labelled status.name =
      Detections.techniquesWith (classify run evidence window now).records status := by
  rw [← labelled_wellFormed run evidence window now company generatedAt status]
  refine (Finset.filter_true_of_mem fun id hid => ?_).symm
  obtain ⟨-, hlabel⟩ := mem_labelled_ofRun.mp hid
  rcases (Detections.label_iff (nodup_techniqueIds run evidence window now)).mp hlabel with
    ⟨r, hr, rfl, -⟩ | ⟨-, hpending⟩
  · exact (mem_executed.mp (executed_of_record hr)).1
  · exact absurd hpending hsettled

/-- The summary counts the techniques in the rows, each once, and leaves malformed ids out. -/
def CountsRows (report : Report) (run : Run) : Prop :=
  ∃ counts, report.detection = .summary counts ∧
    counts.detected = (report.labelled "detected").card ∧
    counts.evaded = (report.labelled "evaded").card ∧
    counts.pending = ((report.labelled "pending").filter (Technique.wellFormed · = true)).card ∧
    counts.total = ((run.steps.map (·.techniqueId)).filter Technique.wellFormed).toFinset.card

/-- The rows of a report and its summary tell the same of the records of a run. -/
structure Tells (report : Report) (run : Run) (records : List DetectionRecord) : Prop where
  rows : report.HasRowPerStep run
  labels : ∀ row ∈ report.rows, ∀ row' ∈ report.rows,
    row.techniqueId = row'.techniqueId → row.detection = row'.detection
  summary : report.CountsRows run
  pending : ∀ row ∈ report.rows, row.detection = "pending" →
    (∃ r ∈ records, r.techniqueId = row.techniqueId ∧ r.status = .pending) ∨
    Technique.wellFormed row.techniqueId = false

theorem countsRows_ofRun (run : Run) (evidence : List Evidence) (window : Nat) (now : Instant)
    (company : String) (generatedAt : Instant) :
    (ofRun run (classify run evidence window now) company generatedAt).CountsRows run := by
  set report := ofRun run (classify run evidence window now) company generatedAt
  have hone := nodup_techniqueIds run evidence window now
  have hdetected : report.labelled "detected" = _ :=
    labelled_settled run evidence window now company generatedAt .detected (by decide)
  have hevaded : report.labelled "evaded" = _ :=
    labelled_settled run evidence window now company generatedAt .evaded (by decide)
  have hpending : (report.labelled "pending").filter (Technique.wellFormed · = true) = _ :=
    labelled_wellFormed run evidence window now company generatedAt .pending
  have hlength : (classify run evidence window now).records.length = (executed run).length := by
    rw [← techniqueIds_classify run evidence window now, List.length_map]
  refine ⟨_, rfl, ?_, ?_, ?_, ?_⟩
  · rw [hdetected, Detections.card_techniquesWith hone]
    rfl
  · rw [hevaded, Detections.card_techniquesWith hone]
    rfl
  · rw [hpending, Detections.card_techniquesWith hone]
    rfl
  · rw [← length_eraseDups]
    exact (Detections.countP_statuses _).trans hlength

/-- A row without a record has a malformed technique id. -/
theorem pending_classify {row : TechniqueRow} {company : String} {generatedAt : Instant}
    (hrow : row ∈ (ofRun run (classify run evidence window now) company generatedAt).rows)
    (hlabel : row.detection = "pending") :
    (∃ r ∈ (classify run evidence window now).records,
      r.techniqueId = row.techniqueId ∧ r.status = .pending) ∨
    Technique.wellFormed row.techniqueId = false := by
  obtain ⟨s, hs, rfl⟩ := List.mem_map.mp hrow
  have hname : (classify run evidence window now).label s.techniqueId =
      DetectionStatus.pending.name := hlabel
  rcases (Detections.label_iff (nodup_techniqueIds run evidence window now)).mp hname with
    hrecord | ⟨hnone, -⟩
  · exact .inl hrecord
  · right
    rw [techniqueIds_classify] at hnone
    exact Bool.eq_false_iff.mpr fun hwell => hnone (mem_executed.mpr ⟨hwell, s, hs, rfl⟩)

theorem label_ofRun {detections : Detections} {company : String} {generatedAt : Instant}
    {row : TechniqueRow} (h : row ∈ (ofRun run detections company generatedAt).rows) :
    row.detection = detections.label row.techniqueId := by
  obtain ⟨s, -, rfl⟩ := List.mem_map.mp h
  rfl

theorem tells_classify (run : Run) (evidence : List Evidence) (window : Nat) (now : Instant)
    (company : String) (generatedAt : Instant) :
    (ofRun run (classify run evidence window now) company generatedAt).Tells run
      (classify run evidence window now).records where
  rows := hasRowPerStep_ofRun ..
  labels row hrow row' hrow' hsame := by rw [label_ofRun hrow, label_ofRun hrow', hsame]
  summary := countsRows_ofRun run evidence window now company generatedAt
  pending _ hrow hlabel := pending_classify hrow hlabel

/-- **The summary of a report counts what its rows say**, whatever the steps of the run and the
evidence. Where the store could not be asked, all rows say so, and there is nothing to count. -/
theorem ofRun_tells (run : Run) (company : String) (generatedAt : Instant) :
    (∀ evidence window now,
      let detections := classify run evidence window now
      (ofRun run detections company generatedAt).Tells run detections.records) ∧
    (∀ reason,
      let report := ofRun run (.unavailable reason) company generatedAt
      report.HasRowPerStep run ∧ report.detection = .unavailable reason ∧
        ∀ row ∈ report.rows, row.detection = "unavailable") := by
  refine ⟨fun evidence window now => tells_classify run evidence window now company generatedAt,
    fun reason => ⟨hasRowPerStep_ofRun .., rfl, fun row hrow => ?_⟩⟩
  rw [label_ofRun hrow]
  rfl

end Report
end AfterAction
