import AfterAction.Proofs.Correlation.Verdicts
import AfterAction.Proofs.FirstAppearance
import AfterAction.Proofs.Time.Order
import Mathlib.Data.List.Forall2
import Mathlib.Data.List.Nodup

/-!
# The law of classification

The store answers with one group for each technique, so looking a technique up finds the group that
there is, wherever it stands among the others (`find?_eq_some_iff`). A record follows from that group
and from whether the window is over. An alert settles it for good; the window only ever turns pending
into evaded, and never back, because a deadline that has passed stays passed.
-/

namespace AfterAction.Evidence

variable {run : Run} {evidence evidence' : List Evidence} {window : Nat} {now later : Instant}
  {passed : Bool} {technique : String} {e : Evidence} {r : DetectionRecord}

/-! ## Looking evidence up -/

/-- What the store promises: one group for each technique. Of the rule names in it there are no more
than memory holds, and so no more than a count can tell. -/
structure Contract (evidence : List Evidence) : Prop where
  single : (evidence.map (·.techniqueId)).Nodup
  countable : ∀ e ∈ evidence, e.ruleNames.length < UInt64.size

/-- With one group for each technique, that is the one that is found. -/
theorem find?_eq_some_iff (h : (evidence.map (·.techniqueId)).Nodup) :
    find? evidence technique = some e ↔ e ∈ evidence ∧ e.techniqueId = technique := by
  refine ⟨find?_some, fun ⟨he, hid⟩ => ?_⟩
  cases hfound : find? evidence technique with
  | none =>
    have hnot := List.find?_eq_none.mp hfound e (List.mem_reverse.mpr he)
    simp [hid] at hnot
  | some other =>
    obtain ⟨ho, hother⟩ := find?_some hfound
    rw [List.inj_on_of_nodup_map h ho he (hother.trans hid.symm)]

theorem find?_congr (h : (evidence.map (·.techniqueId)).Nodup)
    (h' : (evidence'.map (·.techniqueId)).Nodup)
    (hsame : ∀ e, e.techniqueId = technique → (e ∈ evidence' ↔ e ∈ evidence)) :
    find? evidence' technique = find? evidence technique := by
  refine Option.ext fun e => ?_
  rw [find?_eq_some_iff h, find?_eq_some_iff h']
  exact and_congr_left (hsame e)

/-! ## A record -/

theorem hasAlert_iff : e.hasAlert = true ↔ 0 < e.detectedCount ∨ e.ruleNames ≠ [] := by
  simp [hasAlert]

theorem recordOf_detected_iff : (recordOf evidence passed technique).status = .detected ↔
    ∃ e, find? evidence technique = some e ∧ e.hasAlert = true := by
  simp only [recordOf]
  cases find? evidence technique with
  | none => cases passed <;> simp [statusOf]
  | some e =>
    cases halert : e.hasAlert with
    | true => simp [statusOf, halert]
    | false => cases hmark : e.markedEvaded <;> cases passed <;> simp [statusOf, halert, hmark]

/-- An alert has been counted, or a rule has a name. -/
theorem alerts_pos (halert : e.hasAlert = true) (hlength : e.ruleNames.length < UInt64.size) :
    0 < max e.detectedCount (UInt64.ofNat e.ruleNames.length) := by
  rw [UInt64.lt_iff_toNat_lt, UInt64.toNat_max, UInt64.toNat_ofNat_of_lt' hlength]
  rcases hasAlert_iff.mp halert with hcount | hnames
  · exact lt_max_of_lt_left (UInt64.lt_iff_toNat_lt.mp hcount)
  · exact lt_max_of_lt_right (List.length_pos_of_ne_nil hnames)

theorem alertCount_pos_iff (h : Contract evidence) :
    0 < (recordOf evidence passed technique).alertCount ↔
      (recordOf evidence passed technique).status = .detected := by
  rw [recordOf_detected_iff]
  simp only [recordOf]
  cases hfound : find? evidence technique with
  | none => simp
  | some e =>
    have hlength := h.countable e (find?_some hfound).1
    cases halert : e.hasAlert with
    | true => simpa [halert] using alerts_pos halert hlength
    | false => simp [halert]

theorem detected_of_ruleName
    (h : (recordOf evidence passed technique).ruleName.isSome = true) :
    (recordOf evidence passed technique).status = .detected := by
  rw [recordOf_detected_iff]
  simp only [recordOf] at h
  cases hfound : find? evidence technique with
  | none =>
    rw [hfound] at h
    cases h
  | some e =>
    rw [hfound] at h
    have hnames : e.ruleNames ≠ [] := by
      intro hnil
      simp [hnil] at h
    exact ⟨e, rfl, hasAlert_iff.mpr (.inr hnames)⟩

/-! ## Later on -/

/-- The same record, unless it was pending and has become one of evasion. -/
def Matures (r r' : DetectionRecord) : Prop :=
  r' = r ∨ r.status = .pending ∧ r' = { r with status := .evaded }

theorem matures_recordOf {passed' : Bool} (h : passed = true → passed' = true) :
    Matures (recordOf evidence passed technique) (recordOf evidence passed' technique) := by
  cases passed' with
  | false =>
    have hopen : passed = false := Bool.eq_false_iff.mpr fun hp => Bool.false_ne_true (h hp)
    exact .inl (by rw [hopen])
  | true =>
    cases passed with
    | true => exact .inl rfl
    | false =>
      simp only [Matures, recordOf]
      cases find? evidence technique with
      | none => exact .inr ⟨rfl, rfl⟩
      | some e => cases halert : e.hasAlert <;> cases hmark : e.markedEvaded <;>
          simp [statusOf, halert, hmark]

/-- A deadline that has passed stays passed. -/
theorem windowPassed_mono (hle : now.notAfter later = true)
    (h : windowPassed run window now = true) : windowPassed run window later = true := by
  rw [windowPassed_iff] at h ⊢
  obtain ⟨finish, deadline, hf, hd, hpassed⟩ := h
  exact ⟨finish, deadline, hf, hd, Instant.notAfter_trans hpassed hle⟩

/-! ## The law -/

/-- What the records of a run say. -/
structure Lawful (run : Run) (evidence : List Evidence) (records : List DetectionRecord) :
    Prop where
  /-- There are records for the well-formed technique ids of the steps, -/
  techniques : ∀ technique, technique ∈ records.map (·.techniqueId) ↔
    Technique.wellFormed technique = true ∧ ∃ s ∈ run.steps, s.techniqueId = technique
  /-- and one for each, in the order in which they first appear. -/
  inOrder : (records.map (·.techniqueId)).Pairwise fun a b =>
    (run.steps.map (·.techniqueId)).idxOf a < (run.steps.map (·.techniqueId)).idxOf b
  detected : ∀ r ∈ records, r.status = .detected ↔
    ∃ e ∈ evidence, e.techniqueId = r.techniqueId ∧ (0 < e.detectedCount ∨ e.ruleNames ≠ [])
  alertCount : ∀ r ∈ records, 0 < r.alertCount ↔ r.status = .detected
  ruleName : ∀ r ∈ records, r.ruleName.isSome = true → r.status = .detected

theorem techniqueIds_recordOf (techniques : List String) :
    (techniques.map (recordOf evidence passed)).map (·.techniqueId) = techniques := by
  rw [List.map_map]
  exact List.map_id techniques

theorem lawful_records (h : Contract evidence) :
    Lawful run evidence ((executed run).map (recordOf evidence passed)) where
  techniques technique := by rw [techniqueIds_recordOf, mem_executed]
  inOrder := by
    rw [techniqueIds_recordOf]
    exact pairwise_idxOf_eraseDups _ _
  detected r hr := by
    obtain ⟨technique, -, rfl⟩ := List.mem_map.mp hr
    rw [recordOf_detected_iff]
    simp only [find?_eq_some_iff h.single, hasAlert_iff, and_assoc]
    rfl
  alertCount r hr := by
    obtain ⟨technique, -, rfl⟩ := List.mem_map.mp hr
    exact alertCount_pos_iff h
  ruleName r hr := by
    obtain ⟨technique, -, rfl⟩ := List.mem_map.mp hr
    exact detected_of_ruleName

/-- **The law of classification.** Where the store keeps its promise, the records of a run are lawful;
neither the order of the evidence nor evidence for what the run has not executed makes a difference;
and with time nothing changes but that pending records become records of evasion. -/
theorem classify_lawful (run : Run) (window : Nat) (now : Instant) (h : Contract evidence) :
    ∃ records, classify run evidence window now = .available records ∧
      Lawful run evidence records ∧
      (∀ evidence', (evidence'.map (·.techniqueId)).Nodup →
        (∀ e, e.techniqueId ∈ executed run → (e ∈ evidence' ↔ e ∈ evidence)) →
        classify run evidence' window now = .available records) ∧
      ∀ later, now.notAfter later = true →
        ∃ records', classify run evidence window later = .available records' ∧
          List.Forall₂ Matures records records' := by
  refine ⟨_, rfl, lawful_records h, ?_, ?_⟩
  · intro evidence' h' hsame
    refine congrArg Detections.available (List.map_congr_left fun technique ht => ?_)
    have hfound : find? evidence' technique = find? evidence technique :=
      find?_congr h.single h' fun e he => hsame e (he ▸ ht)
    rw [recordOf, recordOf, hfound]
  · intro later hle
    refine ⟨_, rfl, ?_⟩
    rw [List.forall₂_map_left_iff, List.forall₂_map_right_iff, List.forall₂_same]
    exact fun technique _ => matures_recordOf (windowPassed_mono hle)

/-! ## A run and its evidence -/

/-- A run that has tried one technique twice, another once, and something that is no technique. -/
def variedRun : Run where
  id := "op-live-0001"
  name := "Live"
  tenant := "acme"
  state := .finished
  startedAt := none
  finishedAt := some ⟨20000, Instant.secondOf 0, Instant.nanoOf 0⟩
  steps := ["T1110", "T1078", "brute force", "T1110", "T1566.001"].map fun technique =>
    ⟨technique, none, "persistence", .success, "", none⟩

/-- One technique was noticed and of another the store was told that it evaded. -/
def variedEvidence : List Evidence :=
  [⟨"T1566.001", 4, 0, true, []⟩, ⟨"T1110", 9, 3, false, ["Many logins"]⟩]

/-- Evidence of something else, and the other order, change nothing; when the window is over, the
technique that was still pending evades. -/
theorem classify_varied :
    let now : Instant := ⟨20000, Instant.secondOf 299, Instant.nanoOf 0⟩
    let later : Instant := ⟨20000, Instant.secondOf 300, Instant.nanoOf 0⟩
    let other : Evidence := ⟨"T1003", 1, 1, false, []⟩
    Contract variedEvidence ∧ now.notAfter later = true ∧
    ∃ records, classify variedRun variedEvidence 300000000000 now = .available records ∧
      Lawful variedRun variedEvidence records ∧
      records.map (·.status) = [.detected, .pending, .evaded] ∧
      classify variedRun (other :: variedEvidence.reverse) 300000000000 now =
        .available records ∧
      ∃ records', classify variedRun variedEvidence 300000000000 later = .available records' ∧
        List.Forall₂ Matures records records' ∧
        records'.map (·.status) = [.detected, .evaded, .evaded] := by
  intro now later other
  have hc : Contract variedEvidence := ⟨by decide, by decide⟩
  have hle : now.notAfter later = true := by decide
  have hexec : executed variedRun = ["T1110", "T1078", "T1566.001"] := by decide +kernel
  obtain ⟨records, hr, hlaw, horder, hlater⟩ :=
    classify_lawful variedRun 300000000000 now hc
  obtain ⟨records', hr', hmatures⟩ := hlater later hle
  refine ⟨hc, hle, records, hr, hlaw, ?_, ?_, records', hr', hmatures, ?_⟩
  · have hrun : (classify variedRun variedEvidence 300000000000 now).records.map (·.status) =
        [.detected, .pending, .evaded] := by decide +kernel
    rw [hr] at hrun
    exact hrun
  · refine horder _ (by decide) fun e he => ?_
    rw [hexec] at he
    have hne : e ≠ other := by
      rintro rfl
      revert he
      decide
    simp [hne]
  · have hrun : (classify variedRun variedEvidence 300000000000 later).records.map (·.status) =
        [.detected, .evaded, .evaded] := by decide +kernel
    rw [hr'] at hrun
    exact hrun

end AfterAction.Evidence
