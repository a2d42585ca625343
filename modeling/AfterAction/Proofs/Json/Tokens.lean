import AfterAction.Json.Scan
import AfterAction.Json.Writing
import AfterAction.Proofs.Text.Digits

/-!
Strings and whole numbers read back. A string is read one written character at a time: whatever the
writer put for a character, the scanner takes off in one step and finds the character in it. A
number ends at the first character that cannot go on with it, so it is read back wherever something
else follows.
-/

namespace AfterAction.Json

open Text

/-- What stands for a control character without a name of its own. -/
theorem hexUnit?_control {n : Nat} (h : n < 32) (rest : List Char) :
    hexUnit? ('0' :: '0' :: Nat.digitChar (n / 16) :: Nat.digitChar (n % 16) :: rest) =
      some (n, rest) := by
  have hzero : hexDigit? '0' = some 0 := rfl
  have hhigh : hexDigit? (Nat.digitChar (n / 16)) = some (n / 16) := hexDigit?_digitChar _ (by omega)
  have hlow : hexDigit? (Nat.digitChar (n % 16)) = some (n % 16) := hexDigit?_digitChar _ (by omega)
  simp only [hexUnit?, hzero, hhigh, hlow, Option.bind_eq_bind, Option.bind_some, Option.pure_def,
    Option.some.injEq, Prod.mk.injEq, and_true]
  omega

/-- One step of the scanner undoes the writing of one character. -/
theorem stringBody_escapeChar (fuel : Nat) (c : Char) (rest done : List Char) (readable : Bool) :
    stringBody (fuel + 1) (escapeChar c ++ rest) done readable =
      stringBody fuel rest (c :: done) readable := by
  unfold escapeChar
  split
  -- the characters with an escape of their own
  iterate 7 rfl
  rename_i hquote hslash _ _ _ _ _
  split
  · rename_i hcontrol
    have hhigh : isHighHalf c.toNat = false := by
      simp only [isHighHalf, Bool.and_eq_false_iff, decide_eq_false_iff_not]
      omega
    have hlow : isLowHalf c.toNat = false := by
      simp only [isLowHalf, Bool.and_eq_false_iff, decide_eq_false_iff_not]
      omega
    simp only [List.cons_append, List.nil_append, stringBody]
    rw [hexUnit?_control hcontrol]
    simp only [hhigh, hlow, Bool.false_eq_true, if_false, Char.ofNat_toNat]
  · rename_i hprintable
    simp only [List.cons_append, List.nil_append]
    -- the other side ends in a scan too, which stays closed
    conv => lhs; unfold stringBody
    split
    · rename_i heq
      cases heq
    · rename_i heq
      exact absurd (List.cons.inj heq).1 hquote
    · rename_i heq
      exact absurd (List.cons.inj heq).1 hslash
    · rename_i heq
      exact absurd (List.cons.inj heq).1 hslash
    · rename_i heq
      cases heq
      exact if_neg hprintable

theorem stringBody_flatMap (s rest : List Char) :
    ∀ (fuel : Nat) (done : List Char), s.length < fuel →
      stringBody fuel (s.flatMap escapeChar ++ '"' :: rest) done true =
        some (done.reverse ++ s, true, rest) := by
  induction s with
  | nil =>
    intro fuel done hfuel
    obtain ⟨fuel, rfl⟩ : ∃ k, fuel = k + 1 := ⟨fuel - 1, by simp at hfuel; omega⟩
    simp [stringBody]
  | cons c s ih =>
    intro fuel done hfuel
    obtain ⟨fuel, rfl⟩ : ∃ k, fuel = k + 1 := ⟨fuel - 1, by simp at hfuel; omega⟩
    rw [List.flatMap_cons, List.append_assoc, stringBody_escapeChar,
      ih fuel (c :: done) (by simpa using hfuel)]
    simp

theorem length_le_flatMap_escapeChar (s : List Char) : s.length ≤ (s.flatMap escapeChar).length := by
  induction s with
  | nil => simp
  | cons c s ih =>
    have hpos : 0 < (escapeChar c).length := by
      unfold escapeChar
      repeat' split
      all_goals simp
    simp only [List.flatMap_cons, List.length_append, List.length_cons]
    omega

theorem stringToken_quoted (s rest : List Char) :
    stringToken (s.flatMap escapeChar ++ '"' :: rest) = some (s, true, rest) := by
  have hlength := length_le_flatMap_escapeChar s
  rw [stringToken, stringBody_flatMap]
  · rfl
  · simp only [List.length_append, List.length_cons]
    omega

/-- Nothing in front that could belong to a number before it. -/
def EndsNumber (rest : List Char) : Prop :=
  ∀ c ∈ rest.head?, c.isDigit = false ∧ c ≠ '.' ∧ c ≠ 'e' ∧ c ≠ 'E'

theorem endsNumber_nil : EndsNumber [] := by
  intro c hc
  cases hc

theorem fraction?_of_ends {rest : List Char} (h : EndsNumber rest) :
    fraction? rest = some ([], rest) := by
  unfold fraction?
  split
  · exact absurd rfl (h _ rfl).2.1
  · rfl

theorem exponent?_of_ends {rest : List Char} (h : EndsNumber rest) :
    exponent? rest = some (none, rest) := by
  unfold exponent?
  split
  · rfl
  · rename_i c rest
    have hc := h c rfl
    simp [hc.2.2.1, hc.2.2.2]

theorem isDigit_of_mem_toDigits {n : Nat} {c : Char} (h : c ∈ Nat.toDigits 10 n) :
    c.isDigit = true :=
  Nat.isDigit_of_mem_toDigits (by decide) (by decide) h

/-- The characters of a whole number. -/
def wholeText (n : Int) : List Char :=
  (if n < 0 then ['-'] else []) ++ Nat.toDigits 10 n.natAbs

/-- A number begins like no other value. -/
theorem wholeText_eq_cons (n : Int) :
    ∃ c front, wholeText n = c :: front ∧ (c = '-' ∨ c.isDigit = true) := by
  by_cases hn : n < 0
  · exact ⟨'-', Nat.toDigits 10 n.natAbs, by simp [wholeText, hn], .inl rfl⟩
  · obtain ⟨c, front, hfront⟩ :=
      List.exists_cons_of_ne_nil (Nat.toDigits_ne_nil (b := 10) (n := n.natAbs))
    have hc : c.isDigit = true := isDigit_of_mem_toDigits (n := n.natAbs) (by simp [hfront])
    exact ⟨c, front, by simp [wholeText, hn, hfront], .inr hc⟩

theorem toList_text_int (n : Int) : (Number.int n).text.toList = wholeText n := by
  simp only [Number.text, Int.toString_eq_repr, Int.repr_eq_if, wholeText]
  by_cases hn : 0 ≤ n
  · have habs : n.toNat = n.natAbs := by omega
    simp [hn, Int.not_lt.mpr hn, Nat.toList_repr, habs]
  · have habs : (-n).toNat = n.natAbs := by omega
    simp [hn, Int.not_le.mp hn, Nat.toList_repr, habs]

/-- Digits in front of a character with no part in a number are the whole of the number. No second
digit ever follows a zero in front. -/
theorem numeral?_wholeText (n : Int) {rest : List Char} (hrest : EndsNumber rest) :
    numeral? (wholeText n ++ rest) =
      some (⟨decide (n < 0), Nat.toDigits 10 n.natAbs, [], none⟩, rest) := by
  have hdigits : ∀ c ∈ Nat.toDigits 10 n.natAbs, c.isDigit = true :=
    fun c => isDigit_of_mem_toDigits
  have hempty : (Nat.toDigits 10 n.natAbs).isEmpty = false := by
    simp [Nat.toDigits_ne_nil]
  have hzero : ((Nat.toDigits 10 n.natAbs).head? == some '0' &&
      (Nat.toDigits 10 n.natAbs).length != 1) = false := by
    rw [Bool.and_eq_false_iff]
    by_cases hhead : (Nat.toDigits 10 n.natAbs).head? = some '0'
    · right
      simp [head?_toDigits_eq_zero hhead]
    · left
      simpa using hhead
  unfold numeral? wholeText
  split
  rename_i negative unsigned hsign
  -- no digit is taken for the sign
  have hparts : negative = decide (n < 0) ∧ unsigned = Nat.toDigits 10 n.natAbs ++ rest := by
    by_cases hn : n < 0
    · simp_all
    · obtain ⟨c, front, hfront⟩ :=
        List.exists_cons_of_ne_nil (Nat.toDigits_ne_nil (b := 10) (n := n.natAbs))
      have hc : c.isDigit = true := hdigits c (by simp [hfront])
      have hminus : c ≠ '-' := by
        rintro rfl
        exact absurd hc (by decide)
      simp_all
  obtain ⟨rfl, rfl⟩ := hparts
  simp only [takeWhile_run hdigits fun c hc => (hrest c hc).1, hempty, hzero, Bool.or_self, Bool.false_eq_true,
    if_false, List.drop_left, fraction?_of_ends hrest, exponent?_of_ends hrest,
    Option.bind_eq_bind, Option.bind_some, Option.pure_def]

theorem gather_of_spelled (cs : List Char) :
    ∀ start value : Nat, cs.foldlM (fun n c => return n * 10 + (← digit? c)) start = some value →
      value < 0x10000000000000000 → gather start cs = (value, cs.length) ∧ start ≤ value := by
  induction cs with
  | nil =>
    intro start value hvalue _
    obtain rfl : start = value := by simpa using hvalue
    exact ⟨rfl, Nat.le_refl _⟩
  | cons c cs ih =>
    intro start value hvalue hroom
    cases hc : digit? c with
    | none => simp [hc] at hvalue
    | some d =>
      simp only [List.foldlM_cons, hc] at hvalue
      obtain ⟨hgather, hle⟩ := ih (start * 10 + d) value hvalue hroom
      have hfits : 10 * start + d < 0x10000000000000000 := by omega
      have hplace : 10 * start + d = start * 10 + d := by omega
      refine ⟨?_, by omega⟩
      simp only [gather, hc, hfits, if_true]
      rw [hplace, hgather]
      rfl

theorem gather_toDigits {n : Nat} (h : n < 0x10000000000000000) :
    gather 0 (Nat.toDigits 10 n) = (n, (Nat.toDigits 10 n).length) :=
  (gather_of_spelled _ 0 n (spelled_toDigits (by decide) digit?_digitChar n) h).1

/-- A whole number that fits 64 bits, with or without sign. -/
def fits (n : Int) : Bool := -0x8000000000000000 ≤ n && n < 0x10000000000000000

theorem json_whole {n : Int} (h : fits n = true) :
    Numeral.json ⟨decide (n < 0), Nat.toDigits 10 n.natAbs, [], none⟩ = .number (.int n) := by
  simp only [fits, Bool.and_eq_true, decide_eq_true_eq] at h
  have hgather := gather_toDigits (n := n.natAbs) (by omega)
  have hwhole : Numeral.whole? ⟨decide (n < 0), Nat.toDigits 10 n.natAbs, [], none⟩ = some n := by
    simp only [Numeral.whole?, hgather, List.isEmpty_nil, Bool.not_true, Option.isSome_none,
      Bool.or_self, Nat.lt_irrefl, decide_false, Bool.false_eq_true, if_false]
    by_cases hn : n < 0
    · have hpos : 0 < n.natAbs := by omega
      have hleast : n.natAbs ≤ 0x8000000000000000 := by omega
      simp only [hn, decide_true, Bool.not_true, Bool.false_eq_true, if_false, hpos, hleast,
        Bool.and_self, if_true, Option.some.injEq]
      omega
    · simp only [hn, decide_false, Bool.not_false, if_true, Option.some.injEq]
      omega
  simp only [Numeral.json, Numeral.number?, hwhole]

/-- A number is taken for no word. -/
theorem wordOrNumber_wholeText {n : Int} (hn : fits n = true) {rest : List Char}
    (hrest : EndsNumber rest) :
    wordOrNumber (wholeText n ++ rest) = (.number (.int n), some rest) := by
  have hnumeral := numeral?_wholeText n hrest
  obtain ⟨c, front, hfront, hc⟩ := wholeText_eq_cons n
  unfold wordOrNumber
  rw [hfront] at hnumeral ⊢
  split
  · simp_all
  · simp_all
  · simp_all
  · rw [hnumeral]
    simp only [json_whole hn]

end AfterAction.Json
