import AfterAction.Proofs.Text.Digits
import AfterAction.Proofs.Time.Calendar
import AfterAction.Time.Reading
import AfterAction.Time.Writing

/-!
Written times read back. The relaxed reader goes through the wire form part by part, and each part
ends where the next one begins with a character of another kind; so the parts come back as they were
written. Put together they are the instant itself exactly where a calendar could have it: in range,
and with a leap second only at the end of a minute. Second 60 names the one after second 59 and no
other, so a leap second elsewhere is written as the second after it.
-/

namespace AfterAction

/-- In range, and in a leap second only at the end of a minute. -/
def Instant.onCalendar (t : Instant) : Bool :=
  t.inRange && (!t.isLeapSecond || t.second.val % 60 == 59)

namespace Time

open Text Reader

variable {α β : Type}

/-- The reader takes `a` off the front of `cs` and leaves `rest`. -/
def Takes (reader : Reader α) (cs : List Char) (a : α) (rest : List Char) : Prop :=
  reader.run cs = some (a, rest)

namespace Takes

theorem run_bind {reader : Reader α} {next : α → Reader β} {cs middle : List Char} {a : α}
    (h : Takes reader cs a middle) : (reader >>= next).run cs = (next a).run middle := by
  unfold Takes at h
  rw [StateT.run_bind, h]
  rfl

theorem bind {reader : Reader α} {next : α → Reader β} {cs middle rest : List Char} {a : α} {b : β}
    (h : Takes reader cs a middle) (hnext : Takes (next a) middle b rest) :
    Takes (reader >>= next) cs b rest :=
  h.run_bind.trans hnext

theorem pure (a : α) (cs : List Char) : Takes (Pure.pure a) cs a cs := rfl

/-- A value computed on the way. -/
theorem lift {a : α} {found : Option α} (h : found = some a) (cs : List Char) :
    Takes (liftM found : Reader α) cs a cs := by
  subst h
  rfl

end Takes

/-- No digit stands in front. -/
def EndsDigits (rest : List Char) : Prop := ∀ c ∈ rest.head?, c.isDigit = false

theorem takes_digits {least most : Nat} {run rest : List Char}
    (hdigits : ∀ c ∈ run, c.isDigit = true) (hleast : least ≤ run.length)
    (hmost : run.length ≤ most) (hrest : run.length = most ∨ EndsDigits rest) :
    Takes (digits least most) (run ++ rest) run rest := by
  have hrun : ((run ++ rest).takeWhile Char.isDigit).take most = run := by
    rcases hrest with hfull | hends
    · rw [List.takeWhile_append_of_pos hdigits, List.take_left' hfull]
    · rw [takeWhile_run hdigits hends, List.take_of_length_le hmost]
  have henough : ¬ run.length < least := Nat.not_lt.mpr hleast
  unfold Takes digits
  simp only [StateT.run_bind, StateT.run_get, Option.pure_def, Option.bind_eq_bind,
    Option.bind_some, hrun, henough, if_false]
  rw [List.drop_left]
  rfl

theorem takes_number {least most n : Nat} {run rest : List Char}
    (hdigits : ∀ c ∈ run, c.isDigit = true) (hleast : least ≤ run.length)
    (hmost : run.length ≤ most) (hrest : run.length = most ∨ EndsDigits rest)
    (hvalue : valueOfDigits? run = some n) : Takes (number least most) (run ++ rest) n rest :=
  .bind (takes_digits hdigits hleast hmost hrest) (.lift hvalue rest)

/-- Nothing is passed over in front of a character that is no blank. -/
theorem takes_blanks {c : Char} {rest : List Char} (h : isBlank c = false) :
    Takes blanks (c :: rest) () (c :: rest) := by
  have htrim : trimFront (c :: rest) = c :: rest := List.dropWhile_cons_of_neg (by simp [h])
  unfold Takes blanks
  rw [StateT.run_modify, htrim]
  rfl

theorem takes_one {test : Char → Bool} {c : Char} (h : test c = true) (rest : List Char) :
    Takes (one test) (c :: rest) c rest := by
  simp [Takes, one, next, h]

theorem isBlank_of_isDigit {c : Char} (h : c.isDigit = true) : isBlank c = false := by
  simp only [Char.isDigit, Bool.and_eq_true, decide_eq_true_eq, ge_iff_le,
    UInt32.le_iff_toNat_le] at h
  have hrange : 48 ≤ c.toNat ∧ c.toNat ≤ 57 := h
  rw [← Bool.not_eq_true, isBlank, Ranges.contains_iff]
  simp only [blankRanges, List.mem_cons, List.not_mem_nil, or_false, not_exists, not_and]
  rintro r hr
  rcases hr with rfl | rfl | rfl | rfl | rfl | rfl | rfl | rfl | rfl | rfl <;> simp only <;> omega

theorem endsDigits_cons {c : Char} (h : c.isDigit = false) (rest : List Char) :
    EndsDigits (c :: rest) := by
  rintro d hd
  cases hd
  exact h

/-- A number of full width, with zeros in front as they come. -/
theorem takes_filled {least width n : Nat} (hleast : least ≤ width) (hwidth : 0 < width)
    (hn : n < Nat.pow 10 width) (rest : List Char) :
    Takes (number least width) (filled 10 width n ++ rest) n rest := by
  have hlength := length_filled (by decide) hwidth hn
  exact takes_number (fun _ => isDigit_of_mem_filled) (by omega) (by omega) (.inl hlength)
    (valueOfDigits?_filled width n)

theorem filled_eq_cons (width n : Nat) :
    ∃ c front, filled 10 width n = c :: front ∧ c.isDigit = true := by
  obtain ⟨c, front, hfront⟩ := List.exists_cons_of_ne_nil (filled_ne_nil 10 width n)
  have hmem : c ∈ filled 10 width n := by simp [hfront]
  exact ⟨c, front, hfront, isDigit_of_mem_filled hmem⟩

theorem takes_loose {n : Nat} (hn : n < 100) (rest : List Char) :
    Takes (loose 2) (filled 10 2 n ++ rest) n rest := by
  obtain ⟨c, front, hfront, hdigit⟩ := filled_eq_cons 2 n
  refine .bind (a := ()) ?_ (takes_filled (by decide) (by decide) (by omega) rest)
  rw [hfront]
  exact takes_blanks (isBlank_of_isDigit hdigit)

theorem takes_looseMark {mark : Char} (h : isBlank mark = false) (rest : List Char) :
    Takes (looseMark mark) (mark :: rest) () rest :=
  .bind (takes_blanks h) (.bind (takes_one (by simp) rest) (.pure () rest))

theorem takes_get (cs : List Char) : Takes get cs cs cs := rfl

theorem takes_peek (cs : List Char) : Takes peek cs cs.head? cs := rfl

theorem takes_next (c : Char) (rest : List Char) : Takes next (c :: rest) c rest := rfl

/-- A number of any length, all of it. -/
theorem takes_long {width n most : Nat} {rest : List Char} (hrest : EndsDigits rest)
    (hmost : (filled 10 width n).length ≤ most) :
    Takes (number 1 most) (filled 10 width n ++ rest) n rest :=
  takes_number (fun _ => isDigit_of_mem_filled) (List.length_pos_iff.mpr (filled_ne_nil 10 width n))
    hmost (.inr hrest) (valueOfDigits?_filled width n)

/-- Years within four digits stand without a sign, others with one and with all their digits. -/
theorem takes_looseYear (year : Int) {rest : List Char} (hrest : EndsDigits rest) :
    Takes looseYear ((Date.yearText year).toList ++ rest) year rest := by
  unfold Date.yearText looseYear
  by_cases hnegative : year < 0
  · simp only [hnegative, if_true, String.toList_append, toList_zeroPadded]
    have hminus : "-".toList = ['-'] := rfl
    rw [hminus]
    refine .bind (takes_blanks (c := '-') (by decide)) (.bind (takes_get _) ?_)
    refine .bind (takes_peek _) (.bind (takes_next '-' _) ?_)
    refine .bind (takes_long hrest (by simp; omega)) ?_
    have hyear : -(year.natAbs : Int) = year := by omega
    rw [hyear]
    exact .pure _ _
  · have hyear : (year.natAbs : Int) = year := by omega
    by_cases hlong : 9999 < year
    · simp only [hnegative, if_false, hlong, if_true, String.toList_append, toList_zeroPadded]
      have hplus : "+".toList = ['+'] := rfl
      rw [hplus]
      refine .bind (takes_blanks (c := '+') (by decide)) (.bind (takes_get _) ?_)
      refine .bind (takes_peek _) (.bind (takes_next '+' _) ?_)
      refine .bind (takes_long hrest (by simp; omega)) ?_
      rw [hyear]
      exact .pure _ _
    · simp only [hnegative, if_false, hlong, toList_zeroPadded]
      have hfour : Takes (number 1 4) (filled 10 4 year.natAbs ++ rest) year.natAbs rest :=
        takes_filled (by decide) (by decide) (show year.natAbs < 10000 by omega) rest
      obtain ⟨c, front, hfront, hdigit⟩ := filled_eq_cons 4 year.natAbs
      rw [hfront, List.cons_append] at hfour ⊢
      refine .bind (takes_blanks (isBlank_of_isDigit hdigit)) (.bind (takes_get _) ?_)
      refine .bind (takes_peek _) ?_
      simp only [List.head?_cons]
      split
      · rename_i heq
        cases heq
        simp at hdigit
      · rename_i heq
        cases heq
        simp at hdigit
      · refine .bind hfour ?_
        rw [hyear]
        exact .pure _ _

theorem takes_noDigits {rest : List Char} (hrest : EndsDigits rest) :
    Takes (modify (·.dropWhile Char.isDigit)) rest () rest := by
  have hdrop : rest.dropWhile Char.isDigit = rest := by
    cases rest with
    | nil => rfl
    | cons c rest => simp [hrest c rfl]
  unfold Takes
  rw [StateT.run_modify, hdrop]
  rfl

/-- A fraction of nine digits of which those behind the width are zeros. -/
theorem takes_fractionOf {width nano : Nat} (hwidth : 0 < width) (hnine : width ≤ 9)
    (hbound : nano < Nat.pow 10 9) (hexact : nano % Nat.pow 10 (9 - width) = 0)
    {rest : List Char} (hrest : EndsDigits rest) :
    Takes fraction (("." ++ zeroPadded width (nano / Nat.pow 10 (9 - width))).toList ++ rest) nano
      rest := by
  have hsplit : Nat.pow 10 9 = Nat.pow 10 (9 - width) * Nat.pow 10 width := by
    simp only [Nat.pow_eq, ← Nat.pow_add, Nat.sub_add_cancel hnine]
  have hsmall : nano / Nat.pow 10 (9 - width) < Nat.pow 10 width :=
    Nat.div_lt_of_lt_mul (hsplit ▸ hbound)
  have hlength := length_filled (by decide) hwidth hsmall
  have hrun : Takes (digits 1 9) (filled 10 width (nano / Nat.pow 10 (9 - width)) ++ rest)
      (filled 10 width (nano / Nat.pow 10 (9 - width))) rest :=
    takes_digits (fun _ => isDigit_of_mem_filled) (by omega) (by omega) (.inr hrest)
  have hback : nano / Nat.pow 10 (9 - width) * Nat.pow 10 (9 - width) = nano :=
    Nat.div_mul_cancel (Nat.dvd_of_mod_eq_zero hexact)
  unfold fraction
  rw [String.toList_append, toList_zeroPadded]
  refine .bind (takes_peek _) (.bind (takes_next '.' _) (.bind hrun ?_))
  refine .bind (takes_noDigits hrest) ?_
  refine .bind (.lift (valueOfDigits?_filled width _) rest) ?_
  rw [hlength, hback]
  exact .pure _ _

/-- The fraction comes in one of four widths, none of which cuts anything off. -/
theorem takes_fraction (t : Instant) {c : Char} (hdigit : c.isDigit = false) (hdot : c ≠ '.')
    (rest : List Char) :
    Takes fraction (t.fractionText.toList ++ c :: rest) (t.nano.val % nanosPerSecond)
      (c :: rest) := by
  have hends := endsDigits_cons hdigit rest
  have hbound : t.nano.val % nanosPerSecond < Nat.pow 10 9 := Nat.mod_lt _ (by decide)
  unfold Instant.fractionText
  generalize t.nano.val % nanosPerSecond = nano at hbound
  simp only
  split
  · rename_i hzero
    subst hzero
    unfold fraction
    refine .bind (takes_peek _) ?_
    simp only [String.toList_empty, List.nil_append, List.head?_cons]
    split
    · rename_i heq
      exact absurd (Option.some.inj heq) hdot
    · exact .pure _ _
  · split
    · rename_i hmilli
      exact @takes_fractionOf 3 nano (by decide) (by decide) hbound hmilli _ hends
    · split
      · rename_i hmicro
        exact @takes_fractionOf 6 nano (by decide) (by decide) hbound hmicro _ hends
      · have hnano := @takes_fractionOf 9 nano (by decide) (by decide) hbound (Nat.mod_one _) _ hends
        rwa [show nano / Nat.pow 10 (9 - 9) = nano from Nat.div_one nano] at hnano

/-- What stands on the wire of an instant. -/
def fieldsOf (t : Instant) : Fields :=
  ⟨t.date, t.clock.1, t.clock.2.1, t.clock.2.2, t.nano.val % nanosPerSecond⟩

theorem toList_wireText (t : Instant) :
    t.wireText.toList =
      (Date.yearText t.date.year).toList ++ '-' :: (filled 10 2 t.date.month ++ '-' ::
        (filled 10 2 t.date.day ++ 'T' :: (filled 10 2 t.clock.1 ++ ':' ::
          (filled 10 2 t.clock.2.1 ++ ':' :: (filled 10 2 t.clock.2.2 ++
            (t.fractionText.toList ++ ['Z'])))))) := by
  simp [Instant.wireText, Instant.dateText, Instant.clockText, toList_zeroPadded]

theorem takes_zoneName : Takes zoneName ['Z'] false ['Z'] := rfl

theorem takes_offset (between : Reader Unit) : Takes (offset between) ['Z'] 0 [] := rfl

theorem takes_blanks_nil : Takes blanks [] () [] := rfl

theorem takes_finish : Takes finish [] () [] := rfl

/-- The relaxed reader finds the parts of the wire form and nothing else. -/
theorem relaxed?_wireText (t : Instant) : relaxed? t.wireText = (fieldsOf t).instant? 0 := by
  have hbounds := Date.month_day_le t.day
  have hmonth : t.date.month < 100 := Nat.lt_of_le_of_lt hbounds.1 (by decide)
  have hday : t.date.day < 100 := Nat.lt_of_le_of_lt hbounds.2 (by decide)
  have hhour : t.clock.1 < 100 := by
    simp only [Instant.clock]
    omega
  have hminute : t.clock.2.1 < 100 := by
    simp only [Instant.clock]
    omega
  have hsecond : t.clock.2.2 < 100 := by
    simp only [Instant.clock, nanosPerSecond]
    omega
  unfold relaxed? relaxed
  -- part by part, each rewrite takes one off the front
  rw [toList_wireText, (takes_looseYear t.date.year (endsDigits_cons rfl _)).run_bind,
    (takes_looseMark (by decide) _).run_bind, (takes_loose hmonth _).run_bind,
    (takes_looseMark (by decide) _).run_bind, (takes_loose hday _).run_bind,
    (takes_one (by decide) _).run_bind, (takes_loose hhour _).run_bind,
    (takes_looseMark (by decide) _).run_bind, (takes_loose hminute _).run_bind,
    (takes_looseMark (by decide) _).run_bind, (takes_loose hsecond _).run_bind,
    (takes_fraction t (by decide) (by decide) []).run_bind]
  rw [(takes_blanks (by decide)).run_bind, takes_zoneName.run_bind]
  simp only [Bool.false_eq_true, if_false]
  rw [(takes_offset _).run_bind, takes_blanks_nil.run_bind, takes_finish.run_bind]
  unfold fieldsOf
  cases Fields.instant? _ _ <;> rfl

/-- The count of seconds behind the fields, and the day and second it names. -/
theorem count_fieldsOf (t : Instant) (second : Nat)
    (hsecond : second = t.second.val % 60) :
    let count : Int := t.date.dayNumber * 86400 + t.clock.1 * 3600 + t.clock.2.1 * 60 + second - 0
    count / 86400 = t.day ∧ Instant.secondOf (count % 86400).toNat = t.second := by
  intro count
  have hcount : count = t.day * 86400 + t.second.val := by
    simp only [count, Instant.date, Date.dayNumber_ofDayNumber, Instant.clock]
    omega
  have hlt := t.second.isLt
  refine ⟨by omega, ?_⟩
  rw [Fin.ext_iff, Instant.secondOf, Fin.val_ofNat]
  omega

/-- The nanosecond field that the written second and fraction stand for. -/
theorem nano_fieldsOf {t : Instant} (h : t.onCalendar = true) :
    ((fieldsOf t).second == 60) = t.isLeapSecond ∧
      (if t.isLeapSecond then 59 else (fieldsOf t).second) = t.second.val % 60 ∧
      Instant.nanoOf (if t.isLeapSecond then (fieldsOf t).nano + nanosPerSecond
        else (fieldsOf t).nano) = t.nano := by
  have hlt := t.nano.isLt
  simp only [Instant.onCalendar, Bool.and_eq_true, Bool.or_eq_true, Bool.not_eq_true',
    beq_iff_eq] at h
  rw [Fin.ext_iff, Instant.nanoOf, Fin.val_ofNat]
  simp only [fieldsOf, Instant.clock, nanosPerSecond]
  by_cases hleap : t.isLeapSecond = true
  · have hminute : t.second.val % 60 = 59 := by
      rcases h.2 with hno | hend
      · rw [hno] at hleap
        cases hleap
      · exact hend
    have hover : nanosPerSecond ≤ t.nano.val := by simpa [Instant.isLeapSecond] using hleap
    simp only [hleap, if_true, beq_iff_eq, nanosPerSecond] at hover ⊢
    omega
  · have hunder : t.nano.val < nanosPerSecond := by simpa [Instant.isLeapSecond] using hleap
    simp only [Bool.not_eq_true] at hleap
    simp only [hleap, Bool.false_eq_true, if_false, beq_eq_false_iff_ne, nanosPerSecond] at hunder ⊢
    omega

theorem instant?_fieldsOf {t : Instant} (h : t.onCalendar = true) :
    (fieldsOf t).instant? 0 = some t := by
  obtain ⟨hleap, hsecond, hnano⟩ := nano_fieldsOf h
  obtain ⟨hday, hclock⟩ := count_fieldsOf t (t.second.val % 60) rfl
  have hrange : t.inRange = true := by
    simp only [Instant.onCalendar, Bool.and_eq_true] at h
    exact h.1
  have hdates := hrange
  simp only [Instant.inRange, Bool.and_eq_true, decide_eq_true_eq] at hdates
  have hvalid : t.date.valid = true := Date.valid_ofDayNumber hdates.1 hdates.2
  have hchecks : ((fieldsOf t).date.valid && (fieldsOf t).hour < 24 && (fieldsOf t).minute < 60 &&
      (fieldsOf t).second ≤ 60 && (fieldsOf t).nano < nanosPerSecond &&
      (0 : Int).natAbs < 86400) = true := by
    have hsecondOfDay := t.second.isLt
    have hnanos := t.nano.isLt
    simp only [Bool.and_eq_true, decide_eq_true_eq]
    simp only [fieldsOf, hvalid, Instant.clock, nanosPerSecond, true_and]
    omega
  unfold Fields.instant?
  simp only [hleap, hsecond, hnano, hchecks, if_true]
  simp only [fieldsOf, hday, hclock]
  rw [if_pos hrange]

/-- Whatever is read is in range, and a leap second only where second 60 was written. -/
theorem onCalendar_of_instant? {t : Instant} (h : (fieldsOf t).instant? 0 = some t) :
    t.onCalendar = true := by
  unfold Fields.instant? at h
  obtain ⟨-, h⟩ := Option.ite_none_right_eq_some.mp h
  obtain ⟨hrange, hread⟩ := Option.ite_none_right_eq_some.mp h
  replace hread := Option.some.inj hread
  rw [hread] at hrange
  have hnano := congrArg (fun t : Instant => t.nano.val) hread
  simp only [Instant.nanoOf, Fin.val_ofNat] at hnano
  simp only [Instant.onCalendar, hrange, Bool.true_and, Bool.or_eq_true, Bool.not_eq_true',
    beq_iff_eq]
  by_cases hsecond : (fieldsOf t).second = 60
  · right
    have hlt := t.nano.isLt
    simp only [fieldsOf, Instant.clock, nanosPerSecond] at hsecond
    omega
  · left
    simp only [beq_iff_eq, hsecond, if_false] at hnano
    simp only [fieldsOf, nanosPerSecond] at hnano
    rw [Instant.isLeapSecond, decide_eq_false_iff_not]
    unfold nanosPerSecond
    omega

/-- The wire form reads back exactly for the instants on the calendar. -/
theorem relaxed?_wireText_eq_some_iff {t : Instant} :
    relaxed? t.wireText = some t ↔ t.onCalendar = true := by
  rw [relaxed?_wireText]
  exact ⟨onCalendar_of_instant?, instant?_fieldsOf⟩

end Time
end AfterAction
