import AfterAction.Proofs.Correlation.Verdicts
import AfterAction.Proofs.FirstAppearance
import AfterAction.TagDocument

/-!
# Which techniques a run is tagged with, and which are correlated

Both lists are read off the steps of the run: what is no technique id is left out, and each id
stands once, where it appears first. The tag document trims the ids before it looks at them, and
correlation takes them as they stand. So the document's techniques are those that would be
correlated if the engine had sent no blanks around them, and one that every step pads is tagged in
the store without ever having a record (`padded_uncorrelated`).
-/

namespace AfterAction

theorem Text.trim_of_unpadded {s : String} (h : ∀ c ∈ s.toList, isBlank c = false) :
    trim s = s := by
  have hkept : ∀ cs : List Char, (∀ c ∈ cs, isBlank c = false) → trimFront cs = cs := by
    intro cs hcs
    cases cs with
    | nil => rfl
    | cons c rest =>
      exact List.dropWhile_cons_of_neg (Bool.not_eq_true _ ▸ hcs c (List.mem_cons_self ..))
  have hreversed : ∀ c ∈ s.toList.reverse, isBlank c = false :=
    fun c hc => h c (List.mem_reverse.mp hc)
  rw [trim, trimChars, hkept _ h, hkept _ hreversed, List.reverse_reverse, String.ofList_toList]

namespace Technique

variable {id : String} {raw : List String} {cap : Nat}

theorem isBlank_digit {c : Char} (h : c.isDigit = true) : Text.isBlank c = false := by
  have hrange : 48 ≤ c.toNat ∧ c.toNat ≤ 57 := by
    simpa [Char.isDigit, UInt32.le_iff_toNat_le] using h
  refine Bool.eq_false_iff.mpr fun hblank => ?_
  obtain ⟨r, hr, hlow, hhigh⟩ := (Text.Ranges.contains_iff _ c).mp hblank
  simp only [Text.blankRanges, List.mem_cons, List.not_mem_nil, or_false] at hr
  rcases hr with rfl | rfl | rfl | rfl | rfl | rfl | rfl | rfl | rfl | rfl <;> omega

/-- There is no blank in a technique id. -/
theorem isBlank_of_wellFormed (h : wellFormed id = true) {c : Char} (hc : c ∈ id.toList) :
    Text.isBlank c = false := by
  have hT : Text.isBlank 'T' = false := by decide
  have hdot : Text.isBlank '.' = false := by decide
  unfold wellFormed wellFormedChars at h
  split at h
  · rename_i heq
    rw [heq] at hc
    simp only [digits, List.all_cons, List.all_nil, Bool.and_true, Bool.and_eq_true] at h
    obtain ⟨h1, h2, h3, h4⟩ := h
    simp only [List.mem_cons, List.not_mem_nil, or_false] at hc
    rcases hc with rfl | rfl | rfl | rfl | rfl
    · exact hT
    all_goals exact isBlank_digit (by assumption)
  · rename_i heq
    rw [heq] at hc
    simp only [digits, List.all_cons, List.all_nil, Bool.and_true, Bool.and_eq_true] at h
    obtain ⟨h1, h2, h3, h4, h5, h6, h7⟩ := h
    simp only [List.mem_cons, List.not_mem_nil, or_false] at hc
    rcases hc with rfl | rfl | rfl | rfl | rfl | rfl | rfl | rfl | rfl
    · exact hT
    · exact isBlank_digit h1
    · exact isBlank_digit h2
    · exact isBlank_digit h3
    · exact isBlank_digit h4
    · exact hdot
    all_goals exact isBlank_digit (by assumption)
  · cases h

theorem trim_of_wellFormed (h : wellFormed id = true) : Text.trim id = id :=
  Text.trim_of_unpadded fun _ hc => isBlank_of_wellFormed h hc

/-- A cap that is not below the number of ids cuts nothing off. -/
theorem collect_of_room (h : raw.length ≤ cap) :
    collect raw cap = ((raw.map Text.trim).filter wellFormed).eraseDups := by
  refine List.take_of_length_le ?_
  calc ((raw.map Text.trim).filter wellFormed).eraseDups.length
      ≤ ((raw.map Text.trim).filter wellFormed).length := by
        rw [length_eraseDups]
        exact List.toFinset_card_le _
    _ ≤ (raw.map Text.trim).length := List.length_filter_le ..
    _ = raw.length := List.length_map ..
    _ ≤ cap := h

/-- Where no technique is padded, trimming lets nothing in. -/
theorem filter_trim (h : ∀ id ∈ raw, wellFormed (Text.trim id) = true → Text.trim id = id) :
    (raw.map Text.trim).filter wellFormed = raw.filter wellFormed := by
  induction raw with
  | nil => rfl
  | cons id rest ih =>
    have hrest := ih fun other ho => h other (List.mem_cons_of_mem _ ho)
    rw [List.map_cons]
    by_cases hwell : wellFormed (Text.trim id) = true
    · have hbare := h id (List.mem_cons_self ..) hwell
      rw [hbare] at hwell ⊢
      rw [List.filter_cons_of_pos hwell, List.filter_cons_of_pos hwell, hrest]
    · -- what is malformed without its blanks is malformed with them
      have hraw : ¬ wellFormed id = true := by
        intro hraw
        rw [trim_of_wellFormed hraw] at hwell
        exact hwell hraw
      rw [List.filter_cons_of_neg hwell, List.filter_cons_of_neg hraw, hrest]

end Technique

theorem TagDocument.techniques_of_ofRun {limits : TagLimits} {now : Instant} {run : Run}
    {document : TagDocument} (h : ofRun limits now run = .ok document) :
    document.fields.techniques =
      Technique.collect (run.steps.map (·.techniqueId)) limits.maxTechniques := by
  unfold ofRun at h
  cases hid : RunId.parse run.id with
  | error fault =>
    rw [hid] at h
    cases h
  | ok id =>
    rw [hid] at h
    cases h
    rfl

/-- The run as the engine would report it without blanks around the technique ids. -/
def Run.trimmed (run : Run) : Run :=
  { run with steps := run.steps.map fun s => { s with techniqueId := Text.trim s.techniqueId } }

namespace Evidence

variable {run : Run} {technique : String}

theorem executed_trimmed (run : Run) : executed run.trimmed =
    (((run.steps.map (·.techniqueId)).map Text.trim).filter Technique.wellFormed).eraseDups := by
  rw [executed, Run.trimmed, List.map_map, List.map_map]
  rfl

theorem mem_executed_trimmed : technique ∈ executed run.trimmed ↔
    Technique.wellFormed technique = true ∧
      ∃ s ∈ run.steps, Text.trim s.techniqueId = technique := by
  rw [mem_executed]
  refine and_congr_right fun _ => ⟨?_, ?_⟩
  · rintro ⟨s, hs, rfl⟩
    obtain ⟨t, ht, rfl⟩ := List.mem_map.mp hs
    exact ⟨t, ht, rfl⟩
  · rintro ⟨s, hs, rfl⟩
    exact ⟨_, List.mem_map_of_mem hs, rfl⟩

/-- Of what is executed once the blanks are gone, the steps that carry the id bare are seen. -/
theorem mem_executed_iff_bare (h : technique ∈ executed run.trimmed) :
    technique ∈ executed run ↔ ∃ s ∈ run.steps, s.techniqueId = technique := by
  rw [mem_executed]
  exact and_iff_right (mem_executed_trimmed.mp h).1

theorem executed_subset_trimmed (h : technique ∈ executed run) :
    technique ∈ executed run.trimmed := by
  obtain ⟨hwell, s, hs, rfl⟩ := mem_executed.mp h
  exact mem_executed_trimmed.mpr ⟨hwell, s, hs, Technique.trim_of_wellFormed hwell⟩

/-- No step has blanks around a technique id. -/
def Bare (run : Run) : Prop :=
  ∀ s ∈ run.steps, Technique.wellFormed (Text.trim s.techniqueId) = true →
    Text.trim s.techniqueId = s.techniqueId

theorem executed_trimmed_of_bare (h : Bare run) : executed run.trimmed = executed run := by
  have hids : ∀ id ∈ run.steps.map (·.techniqueId),
      Technique.wellFormed (Text.trim id) = true → Text.trim id = id := by
    intro id hid
    obtain ⟨s, hs, rfl⟩ := List.mem_map.mp hid
    exact h s hs
  rw [executed_trimmed, Technique.filter_trim hids, executed]

/-- The techniques for which there is a record. -/
def correlated (run : Run) (evidence : List Evidence) (window : Nat) (now : Instant) :
    List String :=
  (classify run evidence window now).records.map (·.techniqueId)

theorem correlated_eq (run : Run) (evidence : List Evidence) (window : Nat) (now : Instant) :
    correlated run evidence window now = executed run :=
  techniqueIds_classify run evidence window now

/-- **A run is tagged with the techniques that are correlated once the blanks around their ids are
dropped**, in the same order. One of them is correlated if some step carries it without blanks, and
the two lists are the same if no step pads a technique. -/
theorem tagged_correlated (limits : TagLimits) (now : Instant)
    (hid : RunId.wellFormed run.id = true)
    (hroom : run.steps.length ≤ limits.maxTechniques) :
    ∃ document, TagDocument.ofRun limits now run = .ok document ∧
      ∀ evidence window asked,
        document.fields.techniques = correlated run.trimmed evidence window asked ∧
        correlated run evidence window asked ⊆ document.fields.techniques ∧
        (∀ technique ∈ document.fields.techniques,
          (technique ∈ correlated run evidence window asked ↔
            ∃ s ∈ run.steps, s.techniqueId = technique)) ∧
        (Bare run → document.fields.techniques = correlated run evidence window asked) := by
  obtain ⟨document, hdoc⟩ : ∃ document, TagDocument.ofRun limits now run = .ok document := by
    rcases TagDocument.ofRun_cases limits now run with ⟨hbad, -⟩ | ⟨-, hok⟩
    · rw [hid] at hbad; cases hbad
    · exact hok
  have htagged : document.fields.techniques = executed run.trimmed := by
    rw [TagDocument.techniques_of_ofRun hdoc, executed_trimmed]
    exact Technique.collect_of_room (by rw [List.length_map]; exact hroom)
  refine ⟨document, hdoc, fun evidence window asked => ?_⟩
  rw [htagged, correlated_eq, correlated_eq]
  exact ⟨rfl, fun _ => executed_subset_trimmed, fun _ => mem_executed_iff_bare,
    executed_trimmed_of_bare⟩

/-! ## A blank before the id -/

/-- A finished run whose only step has an id with a blank before it. -/
def padded : Run where
  id := "op-live-0001"
  name := "Live"
  tenant := "acme"
  state := .finished
  startedAt := none
  finishedAt := none
  steps := [⟨" T1078", none, "persistence", .success, "", none⟩]

theorem padded_tagged :
    let now : Instant := ⟨0, Instant.secondOf 0, Instant.nanoOf 0⟩
    ∃ document, TagDocument.ofRun .standard now padded = .ok document ∧
      document.fields.techniques = ["T1078"] := by
  intro now
  have hid : RunId.wellFormed padded.id = true := by decide +kernel
  have hroom : padded.steps.length ≤ TagLimits.standard.maxTechniques := by decide +kernel
  have hexecuted : executed padded.trimmed = ["T1078"] := by decide +kernel
  obtain ⟨document, hdoc, hagrees⟩ := tagged_correlated .standard now hid hroom
  obtain ⟨htagged, -⟩ := hagrees [] 0 now
  exact ⟨document, hdoc, by rw [htagged, correlated_eq, hexecuted]⟩

/-- The store has the technique under the run's tags, and the report has no record of it. -/
theorem padded_uncorrelated :
    let now : Instant := ⟨0, Instant.secondOf 0, Instant.nanoOf 0⟩
    ∃ document, TagDocument.ofRun .standard now padded = .ok document ∧
      document.fields.techniques = ["T1078"] ∧ correlated padded [] 0 now = [] := by
  intro now
  have hcollected : Technique.collect [" T1078"] TagLimits.standard.maxTechniques = ["T1078"] := by
    decide +kernel
  have hexecuted : executed padded = [] := by decide +kernel
  exact ⟨_, rfl, hcollected, by rw [correlated_eq, hexecuted]⟩

end Evidence
end AfterAction
