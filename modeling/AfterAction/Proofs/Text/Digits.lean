import AfterAction.Text.Digits

/-!
Written numbers read back. Every reader of digits here is the same fold, with a base and a table of
digits of its own; it undoes the library's digits in that base because each step of the fold undoes
the division that produced the digit. Zeros on the left change nothing.
-/

namespace AfterAction.Text

/-- The number that digits spell, the greatest place first. -/
def spelled (base : Nat) (digit : Char → Option Nat) (cs : List Char) : Option Nat :=
  cs.foldlM (fun n c => return n * base + (← digit c)) 0

theorem spelled_concat (base : Nat) (digit : Char → Option Nat) (cs : List Char) (c : Char) :
    spelled base digit (cs ++ [c]) =
      (spelled base digit cs).bind fun n => (digit c).map (n * base + ·) := by
  unfold spelled
  rw [List.foldlM_append]
  simp only [List.foldlM_cons, List.foldlM_nil, Option.bind_eq_bind, Option.pure_def]
  congr 1
  funext n
  cases digit c <;> rfl

theorem spelled_toDigits {base : Nat} {digit : Char → Option Nat} (hbase : 1 < base)
    (hdigit : ∀ d < base, digit d.digitChar = some d) (n : Nat) :
    spelled base digit (Nat.toDigits base n) = some n := by
  induction n using Nat.strongRecOn with
  | ind n ih =>
    by_cases hn : n < base
    · rw [Nat.toDigits_of_lt_base hn]
      simp [spelled, hdigit n hn]
    · have hsmaller : n / base < n := Nat.div_lt_self (by omega) hbase
      rw [Nat.toDigits_of_base_le hbase (by omega), spelled_concat, ih _ hsmaller,
        hdigit _ (Nat.mod_lt _ (by omega))]
      simp [Nat.div_add_mod']

theorem spelled_zeros_append {base : Nat} {digit : Char → Option Nat} (hzero : digit '0' = some 0)
    (k : Nat) (cs : List Char) :
    spelled base digit (List.replicate k '0' ++ cs) = spelled base digit cs := by
  induction k with
  | zero => rfl
  | succ k ih =>
    rw [List.replicate_succ, List.cons_append, ← ih]
    simp [spelled, hzero]

/-- What spells a number has digits only. -/
theorem exists_digit_of_spelled {base n : Nat} {digit : Char → Option Nat} {cs : List Char}
    (h : spelled base digit cs = some n) {c : Char} (hc : c ∈ cs) : ∃ d, digit c = some d := by
  unfold spelled at h
  generalize (0 : Nat) = start at h
  induction cs generalizing start with
  | nil => cases hc
  | cons first rest ih =>
    rw [List.foldlM_cons] at h
    obtain ⟨reached, hfirst, hrest⟩ := Option.bind_eq_some_iff.mp h
    rcases List.mem_cons.mp hc with rfl | hmem
    · obtain ⟨d, hd, -⟩ := Option.bind_eq_some_iff.mp hfirst
      exact ⟨d, hd⟩
    · exact ih hmem reached hrest

/-- Digits with zeros on the left, as many as the width asks for. -/
def filled (base width n : Nat) : List Char :=
  List.replicate (width - (Nat.toDigits base n).length) '0' ++ Nat.toDigits base n

theorem spelled_filled {base : Nat} {digit : Char → Option Nat} (hbase : 1 < base)
    (hdigit : ∀ d < base, digit d.digitChar = some d) (width n : Nat) :
    spelled base digit (filled base width n) = some n := by
  have hzero : digit '0' = some 0 := hdigit 0 (by omega)
  rw [filled, spelled_zeros_append hzero, spelled_toDigits hbase hdigit]

theorem length_filled {base width n : Nat} (hbase : 1 < base) (hwidth : 0 < width)
    (hn : n < Nat.pow base width) : (filled base width n).length = width := by
  have hle := (Nat.length_toDigits_le_iff hbase hwidth).mpr hn
  simp only [filled, List.length_append, List.length_replicate]
  omega

theorem filled_ne_nil (base width n : Nat) : filled base width n ≠ [] := by
  simp [filled, Nat.toDigits_ne_nil]

theorem isDigit_of_mem_filled {width n : Nat} {c : Char} (h : c ∈ filled 10 width n) :
    c.isDigit = true := by
  rcases List.mem_append.mp h with hzero | hdigit
  · rw [List.eq_of_mem_replicate hzero]
    rfl
  · exact Nat.isDigit_of_mem_toDigits (by decide) (by decide) hdigit

/-- A run of characters of one kind ends where another kind begins. -/
theorem takeWhile_run {p : Char → Bool} {run rest : List Char} (hrun : ∀ c ∈ run, p c = true)
    (hrest : ∀ c ∈ rest.head?, p c = false) : (run ++ rest).takeWhile p = run := by
  have hstop : rest.takeWhile p = [] := by
    cases rest with
    | nil => rfl
    | cons c rest => simp [hrest c rfl]
  rw [List.takeWhile_append_of_pos hrun, hstop, List.append_nil]

theorem digit?_digitChar : ∀ d < 10, digit? d.digitChar = some d := by decide

theorem hexDigit?_digitChar : ∀ d < 16, hexDigit? d.digitChar = some d := by decide

theorem valueOfDigits?_eq (cs : List Char) : valueOfDigits? cs = spelled 10 digit? cs := by
  unfold valueOfDigits? spelled
  generalize (0 : Nat) = start
  induction cs generalizing start with
  | nil => rfl
  | cons c rest ih =>
    rw [List.foldl_cons, List.foldlM_cons]
    cases hd : digit? c with
    | none =>
      simp only [Option.bind_eq_bind, Option.bind_some, Option.bind_none]
      clear ih hd
      induction rest with
      | nil => rfl
      | cons c rest ih => simpa using ih
    | some d => simpa using ih (start * 10 + d)

theorem digit?_eq (c : Char) :
    digit? c = if c.isDigit then some (c.toNat - '0'.toNat) else none := by
  have hrange : ('0' ≤ c && c ≤ '9') = c.isDigit := rfl
  rw [digit?, hrange]

/-- Only a run of digits has a value, and it is the value that the digits have by their places. -/
theorem valueOfDigits?_eq_some_iff {cs : List Char} {n : Nat} : valueOfDigits? cs = some n ↔
    (∀ c ∈ cs, c.isDigit = true) ∧ Nat.ofDigitChars 10 cs 0 = n := by
  rw [valueOfDigits?_eq, spelled]
  generalize (0 : Nat) = start
  induction cs generalizing start with
  | nil => simp [Nat.ofDigitChars]
  | cons c rest ih =>
    rw [List.foldlM_cons, digit?_eq, List.forall_mem_cons]
    cases hc : c.isDigit with
    | false => simp
    | true => simpa [Nat.ofDigitChars, Nat.mul_comm] using ih (start * 10 + (c.toNat - '0'.toNat))

theorem toList_zeroPadded (width n : Nat) : (zeroPadded width n).toList = filled 10 width n := by
  simp [zeroPadded, filled]

theorem valueOfDigits?_filled (width n : Nat) : valueOfDigits? (filled 10 width n) = some n := by
  rw [valueOfDigits?_eq, spelled_filled (by decide) digit?_digitChar]

/-- Only zero is written with a zero in front. -/
theorem head?_toDigits_eq_zero {n : Nat} (h : (Nat.toDigits 10 n).head? = some '0') : n = 0 := by
  induction n using Nat.strongRecOn with
  | ind n ih =>
    by_cases hn : n < 10
    · rw [Nat.toDigits_of_lt_base hn] at h
      simpa using h
    · obtain ⟨c, front, hfront⟩ :=
        List.exists_cons_of_ne_nil (Nat.toDigits_ne_nil (b := 10) (n := n / 10))
      rw [Nat.toDigits_of_base_le (by decide) (by omega), hfront, List.cons_append,
        List.head?_cons] at h
      have := ih (n / 10) (by omega) (by rw [hfront, List.head?_cons, h])
      omega

end AfterAction.Text
