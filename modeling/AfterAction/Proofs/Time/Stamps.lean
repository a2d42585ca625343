import AfterAction.Proofs.Time.Reading

/-!
# Stamps

The form of a time in file names has parts of fixed length, two characters each, behind a year that
reads back; so a stamp tells its second. What it is written with is no letter, so it ends where a
name goes on with one.
-/

namespace AfterAction

/-- What years, months and times of day are written with, in file names. -/
def Instant.StampChar (c : Char) : Prop := c.isDigit = true ∨ c = '-' ∨ c = '+' ∨ c = '_'

instance (c : Char) : Decidable (Instant.StampChar c) :=
  inferInstanceAs (Decidable (_ ∨ _ ∨ _ ∨ _))

namespace Instant

open Text

theorem isDigit_of_mem_zeroPadded {width n : Nat} {c : Char}
    (h : c ∈ (Text.zeroPadded width n).toList) : c.isDigit = true := by
  rw [Text.toList_zeroPadded] at h
  exact Text.isDigit_of_mem_filled h

/-- Years are written with digits and a sign. -/
theorem isDigit_or_sign_of_mem_yearText {year : Int} {c : Char} (h : c ∈ (Date.yearText year).toList) :
    c.isDigit = true ∨ c = '-' ∨ c = '+' := by
  unfold Date.yearText at h
  split at h
  · rcases List.mem_append.mp (String.toList_append ▸ h) with hsign | hdigit
    · exact .inr (.inl (List.mem_singleton.mp hsign))
    · exact .inl (isDigit_of_mem_zeroPadded hdigit)
  · split at h
    · rcases List.mem_append.mp (String.toList_append ▸ h) with hsign | hdigit
      · exact .inr (.inr (List.mem_singleton.mp hsign))
      · exact .inl (isDigit_of_mem_zeroPadded hdigit)
    · exact .inl (isDigit_of_mem_zeroPadded h)

theorem isDigit_or_sign_of_mem_dateText {t : Instant} {c : Char} (h : c ∈ (t.dateText "").toList) :
    c.isDigit = true ∨ c = '-' ∨ c = '+' := by
  simp only [dateText, String.toList_append, List.mem_append] at h
  rcases h with (((h | h) | h) | h) | h
  · exact isDigit_or_sign_of_mem_yearText h
  · cases h
  · exact .inl (isDigit_of_mem_zeroPadded h)
  · cases h
  · exact .inl (isDigit_of_mem_zeroPadded h)

theorem isDigit_of_mem_clockText {t : Instant} {c : Char} (h : c ∈ (t.clockText "").toList) :
    c.isDigit = true := by
  simp only [clockText, String.toList_append, List.mem_append] at h
  rcases h with (((h | h) | h) | h) | h
  · exact isDigit_of_mem_zeroPadded h
  · cases h
  · exact isDigit_of_mem_zeroPadded h
  · cases h
  · exact isDigit_of_mem_zeroPadded h

theorem stampChar_of_stamp {t : Instant} {c : Char} (h : c ∈ t.stamp.toList) : StampChar c := by
  simp only [stamp, String.toList_append, List.mem_append] at h
  rcases h with (h | h) | h
  · exact (isDigit_or_sign_of_mem_dateText h).imp id (Or.imp id .inl)
  · exact .inr (.inr (.inr (List.mem_singleton.mp h)))
  · exact .inl (isDigit_of_mem_clockText h)

/-! ## The second of a stamp -/

theorem yearText_inj {year year' : Int}
    (h : (Date.yearText year).toList = (Date.yearText year').toList) : year = year' := by
  have hnone : Time.EndsDigits [] := nofun
  have hread := Time.takes_looseYear year hnone
  have hread' := Time.takes_looseYear year' hnone
  rw [← h] at hread'
  exact (Prod.mk.inj (Option.some.inj (hread.symm.trans hread'))).1

/-- The last part of fixed length, and what stands before it. -/
theorem append_filled_inj {before before' : List Char} {width n n' : Nat} (hwidth : 0 < width)
    (hn : n < Nat.pow 10 width) (hn' : n' < Nat.pow 10 width)
    (h : before ++ filled 10 width n = before' ++ filled 10 width n') :
    before = before' ∧ n = n' := by
  have hlength : (filled 10 width n).length = (filled 10 width n').length := by
    rw [length_filled (by decide) hwidth hn, length_filled (by decide) hwidth hn']
  obtain ⟨hbefore, hfilled⟩ := List.append_inj' h hlength
  refine ⟨hbefore, Option.some.inj ?_⟩
  rw [← valueOfDigits?_filled width n, hfilled, valueOfDigits?_filled]

theorem toList_stamp (t : Instant) :
    t.stamp.toList = (Date.yearText t.date.year).toList ++ filled 10 2 t.date.month ++
      filled 10 2 t.date.day ++ ['_'] ++ filled 10 2 t.clock.1 ++ filled 10 2 t.clock.2.1 ++
      filled 10 2 t.clock.2.2 := by
  simp [stamp, dateText, clockText, toList_zeroPadded]

/-- The times have the same second, a leap second being one of its own. -/
structure SameSecond (t t' : Instant) : Prop where
  day : t.day = t'.day
  second : t.second = t'.second
  leap : t.isLeapSecond = t'.isLeapSecond

theorem clock_bounds (t : Instant) : t.clock.1 < 100 ∧ t.clock.2.1 < 100 ∧ t.clock.2.2 < 100 := by
  obtain ⟨day, ⟨second, hsecond⟩, ⟨nano, hnano⟩⟩ := t
  simp only [clock, nanosPerSecond]
  omega

/-- A clock that shows second 60 shows a leap second, and else it shows the second itself. -/
theorem clock_eq_iff {t t' : Instant} (ht : t.onCalendar = true) (ht' : t'.onCalendar = true) :
    t.clock = t'.clock ↔ t.second = t'.second ∧ t.isLeapSecond = t'.isLeapSecond := by
  obtain ⟨day, ⟨second, hsecond⟩, ⟨nano, hnano⟩⟩ := t
  obtain ⟨day', ⟨second', hsecond'⟩, ⟨nano', hnano'⟩⟩ := t'
  simp only [onCalendar, isLeapSecond, Bool.and_eq_true, Bool.or_eq_true, Bool.not_eq_true',
    decide_eq_false_iff_not, beq_iff_eq] at ht ht'
  simp only [clock, isLeapSecond, Prod.mk.injEq, Fin.mk.injEq, decide_eq_decide]
  simp only [nanosPerSecond] at ht ht' ⊢
  omega

/-- Two times have one stamp exactly if they have the same second. -/
theorem stamp_eq_iff {t t' : Instant} (ht : t.onCalendar = true) (ht' : t'.onCalendar = true) :
    t.stamp = t'.stamp ↔ t.SameSecond t' := by
  constructor
  · intro h
    have hlist := congrArg String.toList h
    rw [toList_stamp, toList_stamp] at hlist
    obtain ⟨hhour, hminute, hsecond⟩ := t.clock_bounds
    obtain ⟨hhour', hminute', hsecond'⟩ := t'.clock_bounds
    obtain ⟨hmonth, hdate⟩ := Date.month_day_le t.day
    obtain ⟨hmonth', hdate'⟩ := Date.month_day_le t'.day
    -- the parts come off from the last to the first
    obtain ⟨hlist, hsecondEq⟩ := append_filled_inj (by decide) hsecond hsecond' hlist
    obtain ⟨hlist, hminuteEq⟩ := append_filled_inj (by decide) hminute hminute' hlist
    obtain ⟨hlist, hhourEq⟩ := append_filled_inj (by decide) hhour hhour' hlist
    have hlist := List.append_cancel_right hlist
    obtain ⟨hlist, hdateEq⟩ := append_filled_inj (by decide) (Nat.lt_of_le_of_lt hdate (by decide))
      (Nat.lt_of_le_of_lt hdate' (by decide)) hlist
    obtain ⟨hlist, hmonthEq⟩ := append_filled_inj (by decide)
      (Nat.lt_of_le_of_lt hmonth (by decide)) (Nat.lt_of_le_of_lt hmonth' (by decide)) hlist
    have hdates : t.date = t'.date := Date.mk.injEq .. ▸ ⟨yearText_inj hlist, hmonthEq, hdateEq⟩
    have hday : t.day = t'.day := by
      rw [← Date.dayNumber_ofDayNumber t.day, ← date, hdates, date, Date.dayNumber_ofDayNumber]
    have hclock : t.clock = t'.clock := Prod.ext hhourEq (Prod.ext hminuteEq hsecondEq)
    obtain ⟨hsecond, hleap⟩ := (clock_eq_iff ht ht').mp hclock
    exact ⟨hday, hsecond, hleap⟩
  · rintro ⟨hday, hsecond, hleap⟩
    have hclock := (clock_eq_iff ht ht').mpr ⟨hsecond, hleap⟩
    simp only [stamp, dateText, clockText, date, hday, hclock]

end Instant
end AfterAction
