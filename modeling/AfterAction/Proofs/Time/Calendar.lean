import AfterAction.Time.Date

/-!
Days and dates name each other. An era of 400 years is three centuries and one that is a day longer,
a century twenty-four spans of four years and one that may be a day shorter; so the day of an era is
a sum over centuries, spans and years, and the two divisions that find the year and the month undo
that sum exactly.
-/

namespace AfterAction.Date

/-- The year of an era that a day of it falls into; years begin in March. -/
def yearOfEra (d : Int) : Int := (d - d / 1460 + d / 36524 - d / 146096) / 365

/-- The days of an era before a year of it. -/
def daysBefore (year : Int) : Int := 365 * year + year / 4 - year / 100

/-- A day of an era by its century, its span of four years, its year in the span, and its day in
that year. Only the last year of a span has a day 365, in the last span of a century only where the
century is the last. -/
theorem exists_cycles {d : Int} (hfirst : 0 ≤ d) (hlast : d ≤ 146096) :
    ∃ k q t j : Int, (0 ≤ k ∧ k ≤ 3) ∧ (0 ≤ q ∧ q ≤ 24) ∧ (0 ≤ t ∧ t ≤ 3) ∧ (0 ≤ j ∧ j ≤ 365) ∧
      (j = 365 → t = 3 ∧ (q = 24 → k = 3)) ∧ d = 36524 * k + 1461 * q + 365 * t + j := by
  refine ⟨min (d / 36524) 3, (d - 36524 * min (d / 36524) 3) / 1461,
    min ((d - 36524 * min (d / 36524) 3) % 1461 / 365) 3,
    (d - 36524 * min (d / 36524) 3) % 1461 -
      365 * min ((d - 36524 * min (d / 36524) 3) % 1461 / 365) 3, ?_⟩
  generalize hk : min (d / 36524) 3 = k
  have hcentury : 0 ≤ k ∧ k ≤ 3 ∧ 0 ≤ d - 36524 * k ∧ d - 36524 * k ≤ 36524 ∧
      (k < 3 → d - 36524 * k < 36524) := by omega
  generalize hr : d - 36524 * k = r at hcentury ⊢
  omega

theorem yearOfEra_eq {k q t j : Int} (hk : 0 ≤ k ∧ k ≤ 3) (hq : 0 ≤ q ∧ q ≤ 24)
    (ht : 0 ≤ t ∧ t ≤ 3) (hj : 0 ≤ j ∧ j ≤ 365) (hleap : j = 365 → t = 3 ∧ (q = 24 → k = 3)) :
    yearOfEra (36524 * k + 1461 * q + 365 * t + j) = 100 * k + 4 * q + t := by
  generalize hd : 36524 * k + 1461 * q + 365 * t + j = d
  have hspan : d / 1460 = 25 * k + q + (24 * k + q + 365 * t + j) / 1460 := by omega
  have hcentury : d / 36524 = k + (1461 * q + 365 * t + j) / 36524 := by omega
  have hera : d / 146096 = (1461 * q + 365 * t + j) / 36524 := by omega
  unfold yearOfEra
  omega

theorem daysBefore_eq {k q t : Int} (hq : 0 ≤ q ∧ q ≤ 24) (ht : 0 ≤ t ∧ t ≤ 3) :
    daysBefore (100 * k + 4 * q + t) = 36524 * k + 1461 * q + 365 * t := by
  unfold daysBefore
  omega

/-- A date by its year from March on. The last day of such a year is there only if the calendar
year it ends in is a leap year. -/
theorem ofDayNumber_spec (n : Int) :
    ∃ era y j m : Int, (0 ≤ y ∧ y ≤ 399) ∧ (0 ≤ j ∧ j ≤ 365) ∧ m = (5 * j + 2) / 153 ∧
      (j = 365 → isLeapYear (y + era * 400 + 1) = true) ∧
      n + 719468 = era * 146097 + daysBefore y + j ∧
      ofDayNumber n =
        { year := if m < 10 then y + era * 400 else y + era * 400 + 1
          month := (if m < 10 then m + 3 else m - 9).toNat
          day := (j - (153 * m + 2) / 5 + 1).toNat } := by
  generalize hz : n + 719468 = z
  have hfirst : 0 ≤ z - z / 146097 * 146097 := by omega
  have hlast : z - z / 146097 * 146097 ≤ 146096 := by omega
  obtain ⟨k, q, t, j, hk, hq, ht, hj, hleap, hday⟩ := exists_cycles hfirst hlast
  refine ⟨z / 146097, 100 * k + 4 * q + t, j, (5 * j + 2) / 153, by omega, hj, rfl, ?_, ?_, ?_⟩
  · intro hlong
    obtain ⟨rfl, hcentury⟩ := hleap hlong
    simp only [isLeapYear, Bool.and_eq_true, Bool.or_eq_true, beq_iff_eq, bne_iff_ne]
    omega
  · rw [daysBefore_eq hq ht]
    omega
  · -- the two divisions of the definition, on the sum
    have hyear := yearOfEra_eq hk hq ht hj hleap
    have hbefore := daysBefore_eq (k := k) hq ht
    rw [← hday] at hyear
    unfold yearOfEra at hyear
    unfold daysBefore at hbefore
    have hdayOfYear :
        z - z / 146097 * 146097 - (36524 * k + 1461 * q + 365 * t) = j := by omega
    simp only [ofDayNumber, hz, hyear, hbefore, hdayOfYear]
    obtain ⟨m, hm⟩ : ∃ m, (5 * j + 2) / 153 = m := ⟨_, rfl⟩
    rw [hm]
    by_cases hlate : m < 10
    · have hmonth : ¬ m + 3 ≤ 2 := by omega
      simp only [hlate, hmonth, if_true, if_false]
    · have hmonth : m - 9 ≤ 2 := by omega
      simp only [hlate, hmonth, if_true, if_false]

/-- The date of a day has the number of that day. -/
theorem dayNumber_ofDayNumber (n : Int) : dayNumber (ofDayNumber n) = n := by
  obtain ⟨era, y, j, m, hy, hj, hm, -, hday, hdate⟩ := ofDayNumber_spec n
  have hera : (y + era * 400) / 400 = era := by omega
  have hyear : y + era * 400 - era * 400 = y := by omega
  have hdayOfMonth : (((j - (153 * m + 2) / 5 + 1).toNat : Nat) : Int) =
      j - (153 * m + 2) / 5 + 1 := by omega
  unfold daysBefore at hday
  rw [hdate]
  by_cases hlate : m < 10
  · have hmonth : (((m + 3).toNat : Nat) : Int) = m + 3 := by omega
    have hnot : ¬ (m + 3).toNat ≤ 2 := by omega
    have hafter : 2 < (m + 3).toNat := by omega
    simp only [hlate, if_true, dayNumber, hnot, hafter, if_false, hmonth, hdayOfMonth, hera, hyear]
    omega
  · have hmonth : (((m - 9).toNat : Nat) : Int) = m - 9 := by omega
    have hearly : (m - 9).toNat ≤ 2 := by omega
    have hnot : ¬ 2 < (m - 9).toNat := by omega
    simp only [hlate, if_true, dayNumber, hearly, hnot, if_false, hmonth, hdayOfMonth,
      Int.add_sub_cancel, hera, hyear]
    omega

/-- The months from March on are as long as the linear rule makes them; only February, the last of
them, asks for the kind of its year. -/
theorem day_le_monthLength {year j m : Int} (hj : 0 ≤ j ∧ j ≤ 365) (hm : m = (5 * j + 2) / 153)
    (hleap : j = 365 → isLeapYear (year + 1) = true) :
    (j - (153 * m + 2) / 5 + 1).toNat ≤
      monthLength (if m < 10 then year else year + 1) (if m < 10 then m + 3 else m - 9).toNat := by
  have hmonths : m = 0 ∨ m = 1 ∨ m = 2 ∨ m = 3 ∨ m = 4 ∨ m = 5 ∨ m = 6 ∨ m = 7 ∨ m = 8 ∨ m = 9 ∨
      m = 10 ∨ m = 11 := by omega
  by_cases hfebruary : m = 11
  · subst hfebruary
    simp only [show ¬ (11 : Int) < 10 by decide, if_false, show (11 - 9 : Int).toNat = 2 from rfl,
      monthLength]
    split
    · omega
    · rename_i hcommon
      have : j ≠ 365 := fun h => hcommon (hleap h)
      omega
  · rcases hmonths with rfl | rfl | rfl | rfl | rfl | rfl | rfl | rfl | rfl | rfl | rfl | rfl
    all_goals first
      | exact absurd rfl hfebruary
      | simp only [monthLength, Int.reduceLT, if_true, if_false, Int.reduceAdd, Int.reduceSub,
          Int.reduceToNat]
        omega

theorem month_day_le (n : Int) : (ofDayNumber n).month ≤ 12 ∧ (ofDayNumber n).day ≤ 31 := by
  obtain ⟨era, y, j, m, hy, hj, hm, hleap, hday, hdate⟩ := ofDayNumber_spec n
  rw [hdate]
  constructor
  · dsimp only
    split <;> omega
  · dsimp only
    omega

/-- The first day in range lies in the January that ends its year from March on, the last one in
the December before such an end. -/
theorem year_bounds {n year j : Int} (hj : 0 ≤ j ∧ j ≤ 365)
    (hday : n + 719468 = 365 * year + year / 4 - year / 100 + year / 400 + j)
    (hfirst : firstDay ≤ n) (hlast : n ≤ lastDay) :
    (firstYear ≤ year ∨ year = firstYear - 1 ∧ 306 ≤ j) ∧
      (year < lastYear ∨ year = lastYear ∧ j ≤ 305) := by
  have hlow : firstDay = -96465292 := by decide
  have hhigh : lastDay = 95026236 := by decide
  unfold firstYear lastYear
  constructor
  · by_cases hyear : year = -262144
    · subst hyear
      omega
    · omega
  · by_cases hyear : year = 262142
    · subst hyear
      omega
    · omega

/-- Every day in range has a date that can be written down. -/
theorem valid_ofDayNumber {n : Int} (hfirst : firstDay ≤ n) (hlast : n ≤ lastDay) :
    (ofDayNumber n).valid = true := by
  obtain ⟨era, y, j, m, hy, hj, hm, hleap, hday, hdate⟩ := ofDayNumber_spec n
  have hlength := day_le_monthLength hj hm hleap
  have hcount : n + 719468 = 365 * (y + era * 400) + (y + era * 400) / 4 - (y + era * 400) / 100 +
      (y + era * 400) / 400 + j := by
    unfold daysBefore at hday
    omega
  have hyears := year_bounds hj hcount hfirst hlast
  clear hday
  rw [hdate]
  simp only [valid, Bool.and_eq_true, decide_eq_true_eq]
  refine ⟨⟨⟨⟨⟨?_, ?_⟩, ?_⟩, ?_⟩, ?_⟩, hlength⟩
  · split <;> omega
  · split <;> omega
  · split <;> omega
  · split <;> omega
  · omega

end AfterAction.Date
