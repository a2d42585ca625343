import AfterAction.Proofs.Text.Digits
import AfterAction.Report.Job

/-!
Job ids read back from their written form. The form holds 32 digits and four hyphens, so its length
alone tells it from the other forms; and as no digit is a hyphen, the groups between the hyphens are
the groups that were written.
-/

namespace AfterAction.JobId

open Text

theorem isSome_of_spelled {base n : Nat} {digit : Char → Option Nat} {cs : List Char}
    (h : spelled base digit cs = some n) : ∀ c ∈ cs, (digit c).isSome = true := by
  unfold spelled at h
  generalize (0 : Nat) = start at h
  induction cs generalizing start with
  | nil => simp
  | cons c cs ih =>
    cases hc : digit c with
    | none => simp [hc] at h
    | some d =>
      simp only [List.foldlM_cons, hc] at h
      simp only [List.mem_cons, forall_eq_or_imp, hc, Option.isSome_some, true_and]
      exact ih _ h

/-- The 32 digits of an id. -/
def digits (id : JobId) : List Char := filled 16 32 id.bits.toNat

theorem length_digits (id : JobId) : id.digits.length = 32 :=
  length_filled (by decide) (by decide) id.bits.isLt

theorem spelled_digits (id : JobId) : spelled 16 hexDigit? id.digits = some id.bits.toNat :=
  spelled_filled (by decide) hexDigit?_digitChar 32 _

theorem hyphen_notMem_digits (id : JobId) : '-' ∉ id.digits := by
  intro h
  have := isSome_of_spelled id.spelled_digits '-' h
  cases this

theorem ofHex?_digits (id : JobId) : ofHex? id.digits = some id := by
  have hlength : ¬ id.digits.length ≠ 32 := by simp [id.length_digits]
  have hvalue := id.spelled_digits
  unfold spelled at hvalue
  simp only [Option.bind_eq_bind, Option.pure_def] at hvalue
  simp only [ofHex?, hlength, if_false, Option.bind_eq_bind, Option.pure_def, hvalue,
    Option.bind_some, BitVec.ofNat_toNat, BitVec.setWidth_eq]

/-- The written groups, put together, are the digits. -/
theorem flatten_splitGroups (lengths : List Nat) (cs : List Char)
    (h : cs.length = lengths.foldr Nat.add 0) :
    (splitGroups lengths cs).flatten = cs ∧ (splitGroups lengths cs).map List.length = lengths ∧
      ∀ group ∈ splitGroups lengths cs, ∀ c ∈ group, c ∈ cs := by
  induction lengths generalizing cs with
  | nil =>
    obtain rfl : cs = [] := by simpa using h
    simp [splitGroups]
  | cons n lengths ih =>
    rw [List.foldr_cons, Nat.add_eq] at h
    obtain ⟨hflat, hlengths, hmem⟩ := ih (cs.drop n) (by simp; omega)
    refine ⟨?_, ?_, ?_⟩
    · rw [splitGroups, List.flatten_cons, hflat, List.take_append_drop]
    · rw [splitGroups, List.map_cons, hlengths, List.length_take, Nat.min_eq_left (by omega)]
    · intro group hgroup c hc
      rcases List.mem_cons.mp hgroup with rfl | hrest
      · exact List.mem_of_mem_take hc
      · exact List.mem_of_mem_drop (hmem group hrest c hc)

/-- The five groups of the written form. -/
theorem exists_groups (id : JobId) :
    ∃ a b c d e, [a, b, c, d, e].map List.length = groups ∧ a ++ b ++ c ++ d ++ e = id.digits ∧
      id.text.toList = List.intercalate ['-'] [a, b, c, d, e] ∧
      id.text.toList.splitOn '-' = [a, b, c, d, e] := by
  have hlength : id.digits.length = groups.foldr Nat.add 0 := id.length_digits
  obtain ⟨hflat, hlengths, hmem⟩ := flatten_splitGroups groups id.digits hlength
  obtain ⟨a, b, c, d, e, hgroups⟩ :
      ∃ a b c d e, splitGroups groups id.digits = [a, b, c, d, e] := ⟨_, _, _, _, _, rfl⟩
  have htext : id.text.toList = List.intercalate ['-'] (splitGroups groups id.digits) := by
    rw [text, String.toList_ofList]
    rfl
  have hsplit : id.text.toList.splitOn '-' = splitGroups groups id.digits := by
    rw [htext]
    refine List.splitOn_intercalate '-' ?_ (by simp [hgroups])
    intro group hgroup hhyphen
    exact id.hyphen_notMem_digits (hmem group hgroup '-' hhyphen)
  rw [hgroups] at hflat hlengths hsplit htext
  exact ⟨a, b, c, d, e, hlengths, by simpa using hflat, htext, hsplit⟩

theorem parse?_text (id : JobId) : parse? id.text = some id := by
  obtain ⟨a, b, c, d, e, hlengths, hdigits, htext, hsplit⟩ := id.exists_groups
  have hlength : id.text.toList.length = 36 := by
    simp only [List.map_cons, List.map_nil, groups, List.cons.injEq, and_true] at hlengths
    simp [htext, List.intercalate, List.intersperse, hlengths]
  have hhyphenated : ofHyphenated? id.text.toList = some id := by
    unfold ofHyphenated?
    rw [hsplit]
    simp only [hlengths, if_true, hdigits, ofHex?_digits]
  unfold parse?
  simp [hlength, hhyphenated]

end AfterAction.JobId
