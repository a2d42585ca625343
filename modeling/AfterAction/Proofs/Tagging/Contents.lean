import Mathlib.Data.Nat.Digits.Lemmas
import AfterAction.Proofs.FirstAppearance
import AfterAction.Proofs.Text.Cleaning
import AfterAction.TagDocument

/-!
# What a tag document holds

A document is made of what the engine reports, and the engine may report anything. So every part of
it is described here by what may be in it and where in the run it comes from, and not by how it is
cleaned: ids and labels in their catalogue forms, each once and in order of first appearance, texts
of plain characters that are neither empty nor too long, and tags without spaces. A document is
refused for a malformed run id and for nothing else.
-/

namespace AfterAction

/-! ## Forms -/

/-- As many digits as asked for. -/
def Technique.Digits (count : Nat) (cs : List Char) : Prop :=
  cs.length = count ∧ ∀ c ∈ cs, c.isDigit = true

/-- `T####` or `T####.###`. -/
def Technique.HasForm (id : String) : Prop :=
  ∃ main, Digits 4 main ∧
    (id.toList = 'T' :: main ∨ ∃ sub, Digits 3 sub ∧ id.toList = 'T' :: (main ++ '.' :: sub))

/-- 1 to 64 ASCII letters, digits, spaces and hyphens. -/
def Tactic.HasForm (label : String) : Prop :=
  1 ≤ label.toList.length ∧ label.toList.length ≤ 64 ∧
    ∀ c ∈ label.toList, c.isAlphanum = true ∨ c = ' ' ∨ c = '-'

namespace Technique

theorem wellFormed_iff (id : String) : wellFormed id = true ↔ HasForm id := by
  constructor
  · intro h
    unfold wellFormed wellFormedChars at h
    split at h
    · rename_i a b c d heq
      exact ⟨[a, b, c, d], ⟨rfl, List.all_eq_true.mp h⟩, .inl heq⟩
    · rename_i a b c d x y z heq
      have hall := List.all_eq_true.mp h
      refine ⟨[a, b, c, d], ⟨rfl, fun e he => hall e ?_⟩, .inr ⟨[x, y, z], ⟨rfl, fun e he => hall e ?_⟩,
        heq⟩⟩
      · exact List.mem_append_left [x, y, z] he
      · exact List.mem_append_right [a, b, c, d] he
    · cases h
  · rintro ⟨main, ⟨hlength, hmain⟩, hid⟩
    match main, hlength with
    | [a, b, c, d], _ =>
      rcases hid with hid | ⟨sub, ⟨hlength', hsub⟩, hid⟩
      · rw [wellFormed, hid]
        exact List.all_eq_true.mpr hmain
      · match sub, hlength' with
        | [x, y, z], _ =>
          rw [wellFormed, hid]
          refine List.all_eq_true.mpr fun e he => ?_
          rcases List.mem_append.mp (show e ∈ [a, b, c, d] ++ [x, y, z] from he) with he | he
          · exact hmain e he
          · exact hsub e he

/-- An id has 9 characters at most, all of them digits but a letter and a point. -/
theorem HasForm.chars {id : String} (h : HasForm id) : id.toList.length ≤ 9 ∧
    ∀ c ∈ id.toList, c = 'T' ∨ c = '.' ∨ c.isDigit = true := by
  obtain ⟨main, ⟨hlength, hmain⟩, hid | ⟨sub, ⟨hlength', hsub⟩, hid⟩⟩ := h
  · rw [hid]
    refine ⟨by simp [hlength], fun c hc => ?_⟩
    rcases List.mem_cons.mp hc with rfl | hc
    · exact .inl rfl
    · exact .inr (.inr (hmain c hc))
  · rw [hid]
    refine ⟨by simp [hlength, hlength'], fun c hc => ?_⟩
    rcases List.mem_cons.mp hc with rfl | hc
    · exact .inl rfl
    · rcases List.mem_append.mp hc with hc | hc
      · exact .inr (.inr (hmain c hc))
      · rcases List.mem_cons.mp hc with rfl | hc
        · exact .inr (.inl rfl)
        · exact .inr (.inr (hsub c hc))

/-! ## There are not too many ids to be counted -/

theorem toNat_of_isDigit {c : Char} (h : c.isDigit = true) : 0 < c.toNat ∧ c.toNat < 128 := by
  simp only [Char.isDigit, Bool.and_eq_true, decide_eq_true_eq, ge_iff_le,
    UInt32.le_iff_toNat_le] at h
  have hlow : 48 ≤ c.toNat := h.1
  have hhigh : c.toNat ≤ 57 := h.2
  omega

/-- The characters of an id as the digits of a number. -/
def code (id : String) : Nat := Nat.ofDigits 128 (id.toList.map Char.toNat)

theorem HasForm.codes {id : String} (h : HasForm id) :
    ∀ n ∈ id.toList.map Char.toNat, 0 < n ∧ n < 128 := by
  intro n hn
  obtain ⟨c, hc, rfl⟩ := List.mem_map.mp hn
  rcases h.chars.2 c hc with rfl | rfl | hdigit
  · decide
  · decide
  · exact toNat_of_isDigit hdigit

theorem HasForm.code_lt {id : String} (h : HasForm id) : code id < 128 ^ 9 := by
  have hcodes := h.codes
  calc code id < 128 ^ (id.toList.map Char.toNat).length :=
        Nat.ofDigits_lt_base_pow_length (by decide) fun n hn => (hcodes n hn).2
    _ ≤ 128 ^ 9 := Nat.pow_le_pow_right (by decide) (by rw [List.length_map]; exact h.chars.1)

theorem HasForm.digits_code {id : String} (h : HasForm id) :
    Nat.digits 128 (code id) = id.toList.map Char.toNat :=
  Nat.digits_ofDigits 128 (by decide) _ (fun n hn => (h.codes n hn).2) fun hne =>
    Nat.ne_of_gt (h.codes _ (List.getLast_mem hne)).1

theorem HasForm.code_inj {id id' : String} (h : HasForm id) (h' : HasForm id')
    (he : code id = code id') : id = id' := by
  have hchars : id.toList.map Char.toNat = id'.toList.map Char.toNat := by
    rw [← h.digits_code, ← h'.digits_code, he]
  refine String.toList_inj.mp (List.map_injective_iff.mpr (fun c d hcd => ?_) hchars)
  exact Char.toNat_inj.mp hcd

/-- Different ids are fewer than 64 bits can count. -/
theorem length_lt_of_forms {ids : List String} (hnodup : ids.Nodup)
    (h : ∀ id ∈ ids, HasForm id) : ids.length < UInt64.size := by
  have hcodes : (ids.map code).Nodup :=
    hnodup.map_on fun id hid id' hid' he => (h id hid).code_inj (h id' hid') he
  have hrange : (ids.map code).toFinset ⊆ Finset.range (128 ^ 9) := by
    intro n hn
    obtain ⟨id, hid, rfl⟩ := List.mem_map.mp (List.mem_toFinset.mp hn)
    exact Finset.mem_range.mpr (h id hid).code_lt
  calc ids.length = (ids.map code).toFinset.card := by
        rw [List.toFinset_card_of_nodup hcodes, List.length_map]
    _ ≤ (Finset.range (128 ^ 9)).card := Finset.card_le_card hrange
    _ = 128 ^ 9 := Finset.card_range _
    _ < UInt64.size := by decide

/-- No form has a space in it. -/
theorem HasForm.space_notMem {id : String} (h : HasForm id) : ' ' ∉ id.toList := by
  intro hc
  rcases h.chars.2 ' ' hc with h | h | h <;> cases h

theorem firstAppearances_collect (raw : List String) (cap : Nat) : ∃ all,
    FirstAppearances (raw.map Text.trim) HasForm all ∧ collect raw cap = all.take cap := by
  have h := firstAppearances_eraseDups wellFormed (raw.map Text.trim)
  simp only [wellFormed_iff] at h
  exact ⟨_, h, rfl⟩

theorem collect_length_lt (raw : List String) (cap : Nat) :
    (collect raw cap).length < UInt64.size := by
  obtain ⟨all, hall, hcollect⟩ := firstAppearances_collect raw cap
  rw [hcollect]
  exact length_lt_of_forms (hall.nodup.sublist (List.take_sublist _ _)) fun id hid =>
    ((hall.mem_iff id).mp (List.mem_of_mem_take hid)).2

end Technique

namespace Tactic

theorem isLabel_iff (label : String) : isLabel label = true ↔ HasForm label := by
  simp only [isLabel, allowed, Bool.and_eq_true, decide_eq_true_eq, List.all_eq_true,
    Bool.or_eq_true, beq_iff_eq, or_assoc, and_assoc, HasForm]
  refine and_congr_left' ?_
  omega

theorem firstAppearances_collect (raw : List String) :
    FirstAppearances (raw.map Text.trim) HasForm (collect raw) := by
  have h := firstAppearances_eraseDups isLabel (raw.map Text.trim)
  simp only [isLabel_iff] at h
  exact h

end Tactic

/-! ## Texts -/

namespace Text

/-- Neither empty nor longer than the limit, and of plain characters only. -/
structure Presentable (limit : Nat) (s : String) : Prop where
  ne_empty : s ≠ ""
  plain : ∀ c ∈ s.toList, isAlphanumeric c = true ∨ c = ' ' ∨ c = '-' ∨ c = '_' ∨ c = '.'
  length_le : s.toList.length ≤ limit

/-- A cleaned text is presentable, and so is what stands in for it. -/
theorem presentable_cleanOr {standIn : String} {least : Nat} (hstandIn : Presentable least standIn)
    (limit : Nat) (s : String) : Presentable (max limit least) (cleanOr standIn limit s) := by
  simp only [cleanOr]
  split
  · exact ⟨hstandIn.ne_empty, hstandIn.plain, Nat.le_trans hstandIn.length_le (Nat.le_max_right ..)⟩
  · rename_i hne
    refine ⟨hne, fun c hc => ?_, ?_⟩
    · rw [clean, String.toList_ofList] at hc
      exact (isPlain_iff c).mp (isPlain_of_mem_cleanChars hc)
    · rw [clean, String.toList_ofList]
      exact Nat.le_trans (List.length_take_le ..) (Nat.le_max_left ..)

theorem presentable_of_all {limit : Nat} {s : String} (hne : s ≠ "")
    (hplain : s.toList.all isPlain = true) (hlength : s.toList.length ≤ limit) :
    Presentable limit s :=
  ⟨hne, fun c hc => (isPlain_iff c).mp (List.all_eq_true.mp hplain c hc), hlength⟩

end Text

/-! ## Documents -/

namespace TagDocument

/-- Each text without the blanks at its ends. -/
def Trimmed (raw trimmed : List String) : Prop :=
  List.Forall₂ (fun r t => Text.Trimmed r.toList t.toList) raw trimmed

theorem trimmed_map (raw : List String) : Trimmed raw (raw.map Text.trim) := by
  refine List.forall₂_map_right_iff.mpr (List.forall₂_same.mpr fun r _ => ?_)
  rw [Text.trim, String.toList_ofList]
  exact Text.trimmed_trimChars _

/-- What the document of a run holds. -/
structure Describes (limits : TagLimits) (run : Run) (document : TagDocument) : Prop where
  operationId : document.fields.operationId = run.id
  techniques : ∃ ids all, Trimmed (run.steps.map (·.techniqueId)) ids ∧
    FirstAppearances ids Technique.HasForm all ∧
    document.fields.techniques = all.take limits.maxTechniques
  technique : document.fields.technique = document.fields.techniques.head?
  techniqueCount : document.fields.techniqueCount.toNat = document.fields.techniques.length
  tactics : ∃ labels, Trimmed (run.steps.map (·.tactic)) labels ∧
    FirstAppearances labels Tactic.HasForm document.fields.tactics
  tactic : document.fields.tactic = document.fields.tactics.head?
  operationName : Text.Presentable (max limits.maxTextLength 7) document.fields.operationName
  clientId : Text.Presentable (max limits.maxTextLength 7) document.clientId
  tags : document.tags = ["purple_team", "simulation"] ++
    (document.fields.techniques.take 50).map ("purple_" ++ ·) ++
    (document.fields.tactics.take 20).map fun t => "purple_" ++ underscored t
  spaceless : ∀ tag ∈ document.tags, ' ' ∉ tag.toList

theorem space_notMem_underscored (label : String) : ' ' ∉ (underscored label).toList := by
  rw [underscored, String.toList_ofList]
  intro h
  obtain ⟨c, -, hc⟩ := List.mem_map.mp h
  split at hc
  · cases hc
  · rename_i hne
    exact hne hc

theorem space_notMem_tagOf {label : String} (h : ' ' ∉ label.toList) :
    ' ' ∉ (tagOf label).toList := by
  rw [tagOf, String.toList_append, List.mem_append]
  rintro (h' | h')
  · exact absurd h' (by decide)
  · exact h h'

theorem space_notMem_tagsOf {techniques tactics : List String}
    (h : ∀ id ∈ techniques, Technique.HasForm id) :
    ∀ tag ∈ tagsOf techniques tactics, ' ' ∉ tag.toList := by
  intro tag htag
  rcases List.mem_append.mp htag with htag | htag
  · rcases List.mem_append.mp htag with htag | htag
    · simp only [List.mem_cons, List.not_mem_nil, or_false] at htag
      rcases htag with rfl | rfl <;> decide
    · obtain ⟨id, hid, rfl⟩ := List.mem_map.mp htag
      exact space_notMem_tagOf (h id (List.mem_of_mem_take hid)).space_notMem
  · obtain ⟨label, -, rfl⟩ := List.mem_map.mp htag
    exact space_notMem_tagOf (space_notMem_underscored label)

theorem describes_assemble (limits : TagLimits) (now : Instant) (run : Run) :
    Describes limits run (assemble now run.id
      (Text.cleanOr "Unknown" limits.maxTextLength run.name)
      (Text.cleanOr "unknown" limits.maxTextLength run.tenant) run.state
      (Technique.collect (run.steps.map (·.techniqueId)) limits.maxTechniques)
      (Tactic.collect (run.steps.map (·.tactic)))) := by
  obtain ⟨all, hall, hcollect⟩ :=
    Technique.firstAppearances_collect (run.steps.map (·.techniqueId)) limits.maxTechniques
  have hforms : ∀ id ∈ Technique.collect (run.steps.map (·.techniqueId)) limits.maxTechniques,
      Technique.HasForm id := by
    intro id hid
    rw [hcollect] at hid
    exact ((hall.mem_iff id).mp (List.mem_of_mem_take hid)).2
  have hUnknown : Text.Presentable 7 "Unknown" :=
    Text.presentable_of_all (by decide) (by decide +kernel) (by decide)
  have hunknown : Text.Presentable 7 "unknown" :=
    Text.presentable_of_all (by decide) (by decide +kernel) (by decide)
  exact {
    operationId := rfl
    techniques := ⟨_, all, trimmed_map _, hall, hcollect⟩
    technique := rfl
    techniqueCount := UInt64.toNat_ofNat_of_lt' (Technique.collect_length_lt _ _)
    tactics := ⟨_, trimmed_map _, Tactic.firstAppearances_collect _⟩
    tactic := rfl
    operationName := Text.presentable_cleanOr hUnknown _ _
    clientId := Text.presentable_cleanOr hunknown _ _
    tags := rfl
    spaceless := space_notMem_tagsOf hforms }

/-- **What a tag document holds.** Only a malformed run id refuses a document, and whatever else the
run reports, its document holds nothing but what its parts may hold. -/
theorem ofRun_describes (limits : TagLimits) (now : Instant) (run : Run) :
    (RunId.wellFormed run.id = false ∧ ofRun limits now run = .error ⟨preview run.id⟩) ∨
    (RunId.wellFormed run.id = true ∧ ∃ document, ofRun limits now run = .ok document ∧
      Describes limits run document) := by
  rcases ofRun_cases limits now run with hbad | ⟨hgood, -⟩
  · exact .inl hbad
  · refine .inr ⟨hgood, _, ?_, describes_assemble limits now run⟩
    simp only [ofRun, RunId.parse, hgood, bind, Except.bind, dite_true]
    rfl

end TagDocument
end AfterAction
