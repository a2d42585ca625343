import AfterAction.Proofs.Correlation.Verdicts
import AfterAction.Proofs.Time.Order

/-!
# The evasion window

A window is any number of nanoseconds. One that is longer than every span is cut to the longest, and
the deadline is not on the calendar if the finish time is too near to its end; both times silence
stays pending, and rightly so, because no two instants of the calendar are that far apart. So the
window is over exactly if as many nanoseconds have gone by since the finish time, the last of them
included, and no clock that runs behind the engine's is an exception.
-/

namespace AfterAction.Evidence

variable {run : Run} {evidence : List Evidence} {window : Nat} {finish now : Instant}
  {technique : String} {passed : Bool}

/-- The window is over exactly if it has gone by since the finish time. -/
theorem windowPassed_iff_elapsed (window : Nat) (hfinish : run.finishedAt = some finish)
    (hf : finish.Ordinary) (hn : now.Ordinary) :
    windowPassed run window now = true ↔ (window : Int) ≤ now.nanoCount - finish.nanoCount := by
  have hdeadline : Overdue run window now ↔
      ∃ deadline, finish.later? (min window Instant.longestSpan) = some deadline ∧
        deadline.notAfter now = true := by
    constructor
    · rintro ⟨finish', deadline, hf', hl, hd⟩
      cases hfinish.symm.trans hf'
      exact ⟨deadline, hl, hd⟩
    · rintro ⟨deadline, hl, hd⟩
      exact ⟨finish, deadline, hfinish, hl, hd⟩
  have hcut := Instant.nanoCount_sub_lt hf hn
  rw [windowPassed_iff, hdeadline, Instant.later?_notAfter_iff hf hn]
  omega

theorem find?_eq_none (h : ∀ e ∈ evidence, e.techniqueId ≠ technique) :
    find? evidence technique = none := by
  refine List.find?_eq_none.mpr fun e he => ?_
  simpa using h e (List.mem_reverse.mp he)

/-- Of a technique without evidence only the window decides. -/
theorem recordOf_of_unknown (h : ∀ e ∈ evidence, e.techniqueId ≠ technique) :
    recordOf evidence passed technique =
      ⟨technique, if passed then .evaded else .pending, none, 0⟩ := by
  rw [recordOf, find?_eq_none h]
  rfl

/-- **Silence is evasion from the end of the window on, to the nanosecond.** Detections are always
available, with one record for each executed technique; one of which the store knows nothing evades
if the time since the finish, counted exactly, is at least the window, and is pending before. -/
theorem evaded_iff_elapsed (evidence : List Evidence) (window : Nat)
    (hfinish : run.finishedAt = some finish) (hf : finish.Ordinary) (hn : now.Ordinary) :
    ∃ records, classify run evidence window now = .available records ∧
      records.map (·.techniqueId) = executed run ∧
      ∀ r ∈ records, (∀ e ∈ evidence, e.techniqueId ≠ r.techniqueId) →
        (r.status = .evaded ↔ (window : Int) ≤ now.nanoCount - finish.nanoCount) ∧
        (r.status = .pending ↔ now.nanoCount - finish.nanoCount < window) := by
  refine ⟨_, rfl, techniqueIds_classify run evidence window now, fun r hr hunknown => ?_⟩
  obtain ⟨technique, -, rfl⟩ := List.mem_map.mp hr
  have hnone : ∀ e ∈ evidence, e.techniqueId ≠ technique := hunknown
  have hwindow := windowPassed_iff_elapsed window hfinish hf hn
  rw [recordOf_of_unknown hnone]
  by_cases helapsed : (window : Int) ≤ now.nanoCount - finish.nanoCount
  · have hless : ¬ now.nanoCount - finish.nanoCount < window := Int.not_lt.mpr helapsed
    simp [hwindow.mpr helapsed, helapsed, hless]
  · have hopen : windowPassed run window now = false :=
      Bool.eq_false_iff.mpr fun hpassed => helapsed (hwindow.mp hpassed)
    simp [hopen, helapsed, Int.not_le.mp helapsed]

/-! ## At the boundary -/

/-- A run that lasted until an instant. -/
def liveUntil (finish : Instant) : Run where
  id := "op-live-0001"
  name := "Live"
  tenant := "acme"
  state := .finished
  startedAt := none
  finishedAt := some finish
  steps := [⟨"T1078", none, "persistence", .success, "", none⟩]

theorem executed_liveUntil (finish : Instant) : executed (liveUntil finish) = ["T1078"] := by
  have hsteps : executed (liveUntil finish) = executed (liveUntil ⟨0, 0, 0⟩) := rfl
  rw [hsteps]
  decide +kernel

/-- Five minutes later to the nanosecond a window of five minutes is over, and the longest that can
be asked for is not: it is no span of the calendar. -/
theorem evaded_at_boundary :
    let finish : Instant := ⟨20000, Instant.secondOf 0, Instant.nanoOf 1⟩
    let now : Instant := ⟨20000, Instant.secondOf 300, Instant.nanoOf 1⟩
    let longest : Nat := (UInt64.size - 1) * 1000000000 + 999999999
    finish.Ordinary ∧ now.Ordinary ∧
    (∃ r, classify (liveUntil finish) [] 300000000000 now = .available [r] ∧
      r.status = .evaded) ∧
    ∃ r, classify (liveUntil finish) [] longest now = .available [r] ∧ r.status = .pending := by
  intro finish now longest
  have hf : finish.Ordinary := ⟨by decide, by decide⟩
  have hn : now.Ordinary := ⟨by decide, by decide⟩
  have hfinish : (liveUntil finish).finishedAt = some finish := rfl
  refine ⟨hf, hn, ?_, ?_⟩
  · obtain ⟨records, hd, hids, hall⟩ := evaded_iff_elapsed [] 300000000000 hfinish hf hn
    rw [executed_liveUntil] at hids
    obtain ⟨r, rfl, -⟩ := List.map_eq_singleton_iff.mp hids
    exact ⟨r, hd, (hall r (List.mem_singleton_self r) nofun).1.mpr (by decide)⟩
  · obtain ⟨records, hd, hids, hall⟩ := evaded_iff_elapsed [] longest hfinish hf hn
    rw [executed_liveUntil] at hids
    obtain ⟨r, rfl, -⟩ := List.map_eq_singleton_iff.mp hids
    exact ⟨r, hd, (hall r (List.mem_singleton_self r) nofun).2.mpr (by decide)⟩

end AfterAction.Evidence
