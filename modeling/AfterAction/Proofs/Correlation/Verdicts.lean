import AfterAction.Evidence
import AfterAction.Operation

/-!
# What detections say of a technique

Each executed technique has one record, and the technique's last evidence and the evasion window
settle its status. The window opens with the run's finish time, whatever state the run is in: an
engine gives a run that is still cleaning up a finish time too, and when the window has passed the
silence of its techniques counts as evasion (`cleaningUp_evades`). Silence is never evasion exactly
where there is nothing to speak of or the window has not passed.
-/

namespace AfterAction

/-- The records; none where the store could not be asked. -/
def Detections.records : Detections → List DetectionRecord
  | .available records => records
  | .unavailable _ => []

namespace Evidence

variable {run : Run} {evidence : List Evidence} {window : Nat} {now : Instant} {passed : Bool}
  {found : Option Evidence} {technique : String} {r : DetectionRecord}

/-! ## Records -/

theorem mem_executed : technique ∈ executed run ↔
    Technique.wellFormed technique = true ∧ ∃ s ∈ run.steps, s.techniqueId = technique := by
  rw [executed, List.mem_eraseDups, List.mem_filter, List.mem_map, and_comm]

theorem mem_records : r ∈ (classify run evidence window now).records ↔
    ∃ technique ∈ executed run, recordOf evidence (windowPassed run window now) technique = r :=
  List.mem_map

/-- The records are those of the executed techniques, in their order. -/
theorem techniqueIds_classify (run : Run) (evidence : List Evidence) (window : Nat)
    (now : Instant) :
    (classify run evidence window now).records.map (·.techniqueId) = executed run := by
  rw [show (classify run evidence window now).records =
    (executed run).map (recordOf evidence (windowPassed run window now)) from rfl, List.map_map]
  exact List.map_id _

theorem executed_of_record (h : r ∈ (classify run evidence window now).records) :
    r.techniqueId ∈ executed run := by
  rw [← techniqueIds_classify run evidence window now]
  exact List.mem_map_of_mem h

theorem find?_some {e : Evidence} (h : find? evidence technique = some e) :
    e ∈ evidence ∧ e.techniqueId = technique := by
  have hid := List.find?_some h
  exact ⟨List.mem_reverse.mp (List.mem_of_find?_eq_some h), of_decide_eq_true hid⟩

/-! ## Statuses -/

theorem statusOf_eq_evaded (h : statusOf found passed = .evaded) :
    passed = true ∨ ∃ e, found = some e ∧ e.markedEvaded = true := by
  cases found with
  | none =>
    cases passed with
    | true => exact .inl rfl
    | false => cases h
  | some e =>
    simp only [statusOf] at h
    split at h
    · cases h
    · split at h
      · rename_i hor
        rcases Bool.or_eq_true_iff.mp hor with hmark | hpassed
        · exact .inr ⟨e, rfl, hmark⟩
        · exact .inl hpassed
      · cases h

theorem statusOf_of_silent
    (h : ∀ e, found = some e → e.hasAlert = false ∧ e.markedEvaded = false) :
    statusOf found passed = if passed then .evaded else .pending := by
  cases found with
  | none => rfl
  | some e =>
    obtain ⟨halert, hmark⟩ := h e rfl
    simp [statusOf, halert, hmark]

/-- Some evidence says that the technique evaded. -/
def Marked (evidence : List Evidence) (technique : String) : Prop :=
  ∃ e ∈ evidence, e.techniqueId = technique ∧ e.markedEvaded = true

/-- Some evidence says that the technique raised an alert. -/
def Alerted (evidence : List Evidence) (technique : String) : Prop :=
  ∃ e ∈ evidence, e.techniqueId = technique ∧ e.hasAlert = true

theorem recordOf_evaded (h : (recordOf evidence passed technique).status = .evaded) :
    passed = true ∨ Marked evidence technique := by
  rcases statusOf_eq_evaded h with hpassed | ⟨e, hfound, hmark⟩
  · exact .inl hpassed
  · obtain ⟨he, hid⟩ := find?_some hfound
    exact .inr ⟨e, he, hid, hmark⟩

theorem recordOf_of_silent (hmark : ¬ Marked evidence technique)
    (halert : ¬ Alerted evidence technique) :
    (recordOf evidence passed technique).status = if passed then .evaded else .pending := by
  refine statusOf_of_silent fun e hfound => ?_
  obtain ⟨he, hid⟩ := find?_some hfound
  exact ⟨Bool.eq_false_iff.mpr fun h => halert ⟨e, he, hid, h⟩,
    Bool.eq_false_iff.mpr fun h => hmark ⟨e, he, hid, h⟩⟩

/-! ## Silence -/

/-- The run has a finish time, and the evasion window that begins then is over. -/
def Overdue (run : Run) (window : Nat) (now : Instant) : Prop :=
  ∃ finish deadline, run.finishedAt = some finish ∧
    finish.later? (min window Instant.longestSpan) = some deadline ∧ deadline.notAfter now = true

theorem windowPassed_iff : windowPassed run window now = true ↔ Overdue run window now := by
  unfold windowPassed
  constructor
  · intro h
    split at h
    · rename_i deadline hd
      obtain ⟨finish, hf, hl⟩ := Option.bind_eq_some_iff.mp hd
      exact ⟨finish, deadline, hf, hl, h⟩
    · cases h
  · rintro ⟨finish, deadline, hf, hl, hn⟩
    have hd : deadline? run window = some deadline := Option.bind_eq_some_iff.mpr ⟨finish, hf, hl⟩
    rw [hd]
    exact hn

/-- Whatever the evidence, a technique evades only where it is marked, and silence leaves it
pending. -/
def SilencePends (run : Run) (window : Nat) (now : Instant) : Prop :=
  ∀ evidence, ∀ r ∈ (classify run evidence window now).records,
    (r.status = .evaded → Marked evidence r.techniqueId) ∧
    (¬ Marked evidence r.techniqueId → ¬ Alerted evidence r.techniqueId → r.status = .pending)

theorem silencePends_of_open (h : windowPassed run window now = false) :
    SilencePends run window now := by
  intro evidence r hr
  obtain ⟨technique, -, rfl⟩ := mem_records.mp hr
  rw [h]
  refine ⟨fun hevaded => ?_, fun hmark halert => recordOf_of_silent hmark halert⟩
  rcases recordOf_evaded hevaded with hpassed | hmark
  · cases hpassed
  · exact hmark

/-- With the window over, a technique of which the store knows nothing evades. -/
theorem not_silencePends (hpassed : windowPassed run window now = true)
    (ht : technique ∈ executed run) : ¬ SilencePends run window now := by
  intro h
  have hnone : ¬ Marked [] technique := fun ⟨_, he, _⟩ => absurd he List.not_mem_nil
  obtain ⟨honly, -⟩ := h [] _ (mem_records.mpr ⟨technique, ht, rfl⟩)
  refine hnone (honly ?_)
  rw [hpassed]
  exact recordOf_of_silent hnone fun ⟨_, he, _⟩ => absurd he List.not_mem_nil

/-- **Silence is no evasion until the window after the finish time is over**, and from then on it
is, for a run in any state that has executed a technique. -/
theorem silencePends_iff (run : Run) (window : Nat) (now : Instant) :
    SilencePends run window now ↔ executed run = [] ∨ ¬ Overdue run window now := by
  rw [← windowPassed_iff]
  constructor
  · intro h
    cases hpassed : windowPassed run window now with
    | false => exact .inr Bool.false_ne_true
    | true =>
      refine .inl (List.eq_nil_iff_forall_not_mem.mpr fun t ht => ?_)
      exact not_silencePends hpassed ht h
  · rintro (hnothing | hopen)
    · intro evidence r hr
      obtain ⟨technique, ht, -⟩ := mem_records.mp hr
      rw [hnothing] at ht
      cases ht
    · exact silencePends_of_open (Bool.eq_false_iff.mpr hopen)

/-! ## A run that is cleaning up -/

/-- The engine has set the time at which the last link ended and goes on to clean up. -/
def cleaningUp : Operation where
  id := "op-live-0001"
  name := "Live"
  state := "cleanup"
  start := some "2020-03-01T10:00:00Z"
  finish := some "2020-03-01T10:05:00Z"
  group := some "acme"
  chain := [⟨0, "", none, some ⟨"T1078", none, "persistence", none⟩⟩]

/-- Five minutes are over by 2024. -/
theorem cleaningUp_evades :
    let now : Instant := ⟨20000, Instant.secondOf 43200, Instant.nanoOf 0⟩
    cleaningUp.toRun.isFinished = false ∧
    classify cleaningUp.toRun [] 300000000000 now = .available [⟨"T1078", .evaded, none, 0⟩] ∧
    ¬ SilencePends cleaningUp.toRun 300000000000 now := by
  intro now
  have hrecords : classify cleaningUp.toRun [] 300000000000 now =
      .available [⟨"T1078", .evaded, none, 0⟩] := by decide +kernel
  refine ⟨by decide +kernel, hrecords, fun h => ?_⟩
  have hmem : ⟨"T1078", .evaded, none, 0⟩ ∈
      (classify cleaningUp.toRun [] 300000000000 now).records := by
    rw [hrecords]
    exact List.mem_singleton_self _
  obtain ⟨e, he, -⟩ := (h [] _ hmem).1 rfl
  cases he

end Evidence
end AfterAction
