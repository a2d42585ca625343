import AfterAction.Time.Instant

/-!
# The order of instants

Instants are ordered by day, second and nanosecond, leap seconds between their neighbours. Away from
leap seconds that is the order of the exact counts of nanoseconds, and to be some nanoseconds later
is to be as much further on the count. The calendar ends, and where it does there is no later instant
at all; but every instant of the calendar comes before its end, so asking whether a deadline has
passed never notices (`later?_notAfter_iff`).
-/

namespace AfterAction.Instant

variable {a b c t : Instant}

theorem before_iff : before a b = true ↔
    a.day < b.day ∨ a.day = b.day ∧ (a.second.val < b.second.val ∨
      a.second.val = b.second.val ∧ a.nano.val < b.nano.val) := by
  simp only [before, Bool.or_eq_true, Bool.and_eq_true, decide_eq_true_eq, beq_iff_eq, Fin.lt_def,
    Fin.ext_iff]

theorem notAfter_iff : a.notAfter b = true ↔ ¬ before b a = true := by
  simp [notAfter]

theorem notAfter_trans (hab : a.notAfter b = true) (hbc : b.notAfter c = true) :
    a.notAfter c = true := by
  rw [notAfter_iff, before_iff] at hab hbc ⊢
  omega

theorem notAfter_total (a b : Instant) : (a.notAfter b || b.notAfter a) = true := by
  rw [Bool.or_eq_true, notAfter_iff, notAfter_iff, before_iff, before_iff]
  omega

theorem notAfter_of_before (h : before a b = true) : a.notAfter b = true := by
  rw [notAfter_iff, before_iff]
  rw [before_iff] at h
  omega

/-! ## Away from leap seconds -/

theorem nano_lt (h : t.isLeapSecond = false) : t.nano.val < nanosPerSecond := by
  simpa [isLeapSecond] using h

theorem before_iff_nanoCount (ha : a.isLeapSecond = false) (hb : b.isLeapSecond = false) :
    before a b = true ↔ a.nanoCount < b.nanoCount := by
  have hfirst := nano_lt ha
  have hsecond := nano_lt hb
  rw [before_iff]
  unfold nanoCount
  unfold nanosPerSecond at *
  omega

theorem notAfter_iff_nanoCount (ha : a.isLeapSecond = false) (hb : b.isLeapSecond = false) :
    a.notAfter b = true ↔ a.nanoCount ≤ b.nanoCount := by
  rw [notAfter_iff, before_iff_nanoCount hb ha, Int.not_lt]

theorem isLeapSecond_ofNanoCount (n : Int) : (ofNanoCount n).isLeapSecond = false := by
  rw [isLeapSecond, decide_eq_false_iff_not]
  simp only [ofNanoCount, nanoOf, Fin.ofNat, nanosPerSecond]
  omega

theorem nanoCount_ofNanoCount (n : Int) : (ofNanoCount n).nanoCount = n := by
  simp only [nanoCount, ofNanoCount, nanoOf, secondOf, Fin.ofNat, nanosPerSecond]
  omega

/-! ## The calendar -/

/-- The nanoseconds of a day without a leap second. -/
def nanosPerDay : Int := 86400 * nanosPerSecond

/-- On the calendar, and no leap second. -/
structure Ordinary (t : Instant) : Prop where
  inRange : t.inRange = true
  isLeapSecond : t.isLeapSecond = false

theorem inRange_iff (h : t.isLeapSecond = false) : t.inRange = true ↔
    Date.firstDay * nanosPerDay ≤ t.nanoCount ∧ t.nanoCount < (Date.lastDay + 1) * nanosPerDay := by
  have hnano := nano_lt h
  simp only [inRange, Bool.and_eq_true, decide_eq_true_eq]
  unfold nanoCount nanosPerDay
  unfold nanosPerSecond at *
  omega

theorem Ordinary.bounds (h : t.Ordinary) : Date.firstDay * nanosPerDay ≤ t.nanoCount ∧
    t.nanoCount < (Date.lastDay + 1) * nanosPerDay :=
  (inRange_iff h.isLeapSecond).mp h.inRange

/-- A deadline has passed exactly if as much time has gone by, whether or not the calendar goes on
until the deadline. -/
theorem later?_notAfter_iff (ha : a.Ordinary) (hb : b.Ordinary) (span : Nat) :
    (∃ deadline, a.later? span = some deadline ∧ deadline.notAfter b = true) ↔
      (span : Int) ≤ b.nanoCount - a.nanoCount := by
  have hcount := nanoCount_ofNanoCount (a.nanoCount + span)
  have hplain := isLeapSecond_ofNanoCount (a.nanoCount + span)
  have hlater : a.later? span = if (ofNanoCount (a.nanoCount + span)).inRange
      then some (ofNanoCount (a.nanoCount + span)) else none := by
    simp [later?, ha.isLeapSecond]
  obtain ⟨hstart, -⟩ := ha.bounds
  obtain ⟨-, hend⟩ := hb.bounds
  rw [hlater]
  by_cases hreached : (ofNanoCount (a.nanoCount + span)).inRange = true
  · rw [if_pos hreached]
    simp only [Option.some.injEq, exists_eq_left']
    rw [notAfter_iff_nanoCount hplain hb.isLeapSecond, hcount]
    omega
  · rw [if_neg hreached]
    rw [inRange_iff hplain, hcount] at hreached
    simp only [reduceCtorEq, false_and, exists_false, false_iff]
    omega

/-- The calendar is shorter than the longest span. -/
theorem nanoCount_sub_lt (ha : a.Ordinary) (hb : b.Ordinary) :
    b.nanoCount - a.nanoCount < longestSpan := by
  obtain ⟨hstart, -⟩ := ha.bounds
  obtain ⟨-, hend⟩ := hb.bounds
  have hcalendar : (Date.lastDay + 1 - Date.firstDay) * nanosPerDay < longestSpan := by decide
  rw [Int.sub_mul] at hcalendar
  omega

end AfterAction.Instant
