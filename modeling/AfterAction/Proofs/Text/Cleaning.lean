import AfterAction.Proofs.Text.Trimming
import AfterAction.Text.Cleaned

/-!
# Cleaned texts

A text is clean if it has plain characters only, no more of them than the limit, and no space at
either end. Cleaning leaves these texts alone, and no others. What it makes of a text is clean too
wherever the text fits; but the cut comes after the trimming, so where it falls behind a space, that
space stays at the end, and a second cleaning takes it away.
-/

namespace AfterAction.Text

/-! ## Blanks among plain characters -/

/-- Tables without a common code point have no common character. -/
theorem Ranges.not_contains_of_disjoint {table other : Ranges} {c : Char}
    (hdisjoint : (table.all fun r => other.all fun r' => r.2 < r'.1 || r'.2 < r.1) = true)
    (hc : table.contains c = true) : other.contains c = false := by
  obtain ⟨r, hr, hlow, hhigh⟩ := (table.contains_iff c).mp hc
  refine Bool.eq_false_iff.mpr fun hother => ?_
  obtain ⟨r', hr', hlow', hhigh'⟩ := (other.contains_iff c).mp hother
  have hapart := List.all_eq_true.mp (List.all_eq_true.mp hdisjoint r hr) r' hr'
  simp only [Bool.or_eq_true, decide_eq_true_eq] at hapart
  omega

theorem isAlphanumeric_of_isBlank {c : Char} (h : isBlank c = true) : isAlphanumeric c = false :=
  Ranges.not_contains_of_disjoint (by decide +kernel) h

theorem isPlain_iff (c : Char) : isPlain c = true ↔
    isAlphanumeric c = true ∨ c = ' ' ∨ c = '-' ∨ c = '_' ∨ c = '.' := by
  simp only [isPlain, Bool.or_eq_true, beq_iff_eq, or_assoc]

/-- Of the blanks, only the space is plain. -/
theorem isBlank_iff_of_isPlain {c : Char} (h : isPlain c = true) : isBlank c = true ↔ c = ' ' := by
  refine ⟨fun hblank => ?_, fun hspace => hspace ▸ isBlank_space⟩
  rcases (isPlain_iff c).mp h with hletter | rfl | rfl | rfl | rfl
  · cases hletter.symm.trans (isAlphanumeric_of_isBlank hblank)
  · rfl
  · exact absurd hblank (by decide)
  · exact absurd hblank (by decide)
  · exact absurd hblank (by decide)

/-! ## Clean texts -/

/-- Plain, within the limit, and without spaces at the ends. -/
structure Clean (limit : Nat) (cs : List Char) : Prop where
  plain : ∀ c ∈ cs, isAlphanumeric c = true ∨ c = ' ' ∨ c = '-' ∨ c = '_' ∨ c = '.'
  length_le : cs.length ≤ limit
  head : cs.head? ≠ some ' '
  last : cs.getLast? ≠ some ' '

/-- The plain characters of a text without the blanks at their ends: what cleaning leaves when
nothing is cut. -/
def core (cs : List Char) : List Char := trimChars (cs.filter isPlain)

variable {limit : Nat} {cs : List Char}

theorem trimmed_core (cs : List Char) : Trimmed (cs.filter isPlain) (core cs) :=
  trimmed_trimChars (cs.filter isPlain)

theorem isPlain_of_mem_core {c : Char} (h : c ∈ core cs) : isPlain c = true := by
  obtain ⟨front, back, haround, -⟩ := (trimmed_core cs).around
  have hmem : c ∈ cs.filter isPlain := by
    rw [haround]
    exact List.mem_append_left _ (List.mem_append_right _ h)
  exact (List.mem_filter.mp hmem).2

theorem isPlain_of_mem_cleanChars {c : Char} (h : c ∈ cleanChars limit cs) : isPlain c = true :=
  isPlain_of_mem_core (List.mem_of_mem_take h)

theorem length_core_le (cs : List Char) : (core cs).length ≤ cs.length := by
  obtain ⟨front, back, haround, -⟩ := (trimmed_core cs).around
  have hlen := congrArg List.length haround
  have hfilter := List.length_filter_le isPlain cs
  simp only [List.length_append] at hlen
  omega

theorem head?_core_ne (cs : List Char) : (core cs).head? ≠ some ' ' := fun h =>
  absurd ((trimmed_core cs).head _ h) (by simp [isBlank_space])

theorem getLast?_core_ne (cs : List Char) : (core cs).getLast? ≠ some ' ' := fun h =>
  absurd ((trimmed_core cs).last _ h) (by simp [isBlank_space])

theorem head?_cleanChars_ne (limit : Nat) (cs : List Char) :
    (cleanChars limit cs).head? ≠ some ' ' := by
  have hhead := head?_core_ne cs
  rw [cleanChars, ← core, List.head?_take]
  split
  · nofun
  · exact hhead

/-- A space ends the cut text exactly if the cut falls behind it. -/
theorem getLast?_cleanChars_iff (limit : Nat) (cs : List Char) :
    (cleanChars limit cs).getLast? = some ' ' ↔ 0 < limit ∧ (core cs)[limit - 1]? = some ' ' := by
  have hlast := getLast?_core_ne cs
  rw [cleanChars, ← core, List.getLast?_take]
  split
  · rename_i hzero
    simp [hzero]
  · rename_i hpos
    cases (core cs)[limit - 1]? with
    | none => simpa using hlast
    | some c => simp [Nat.pos_of_ne_zero hpos]

/-- A text that fits is not cut, and comes out clean. -/
theorem clean_cleanChars_of_fits (h : cs.length ≤ limit) : Clean limit (cleanChars limit cs) := by
  have huncut : cleanChars limit cs = core cs :=
    List.take_of_length_le (Nat.le_trans (length_core_le cs) h)
  rw [huncut]
  exact ⟨fun c hc => (isPlain_iff c).mp (isPlain_of_mem_core hc),
    Nat.le_trans (length_core_le cs) h, head?_core_ne cs, getLast?_core_ne cs⟩

/-- Clean texts are those that cleaning leaves alone. -/
theorem cleanChars_eq_self_iff : cleanChars limit cs = cs ↔ Clean limit cs := by
  constructor
  · intro h
    have hfits : cs.length ≤ limit := by
      rw [← h]
      exact List.length_take_le ..
    have hclean := clean_cleanChars_of_fits hfits
    rwa [h] at hclean
  · intro h
    have hplain : cs.filter isPlain = cs :=
      List.filter_eq_self.mpr fun c hc => (isPlain_iff c).mpr (h.plain c hc)
    have hblank : ∀ c ∈ cs, c ≠ ' ' → isBlank c = false := fun c hc hne =>
      Bool.eq_false_iff.mpr fun hb =>
        hne ((isBlank_iff_of_isPlain ((isPlain_iff c).mpr (h.plain c hc))).mp hb)
    have htrimmed : Trimmed cs cs := ⟨⟨[], [], by simp, by simp⟩,
      fun c hc => hblank c (List.mem_of_mem_head? hc) fun he => h.head (he ▸ hc),
      fun c hc => hblank c (List.mem_of_getLast? hc) fun he => h.last (he ▸ hc)⟩
    rw [cleanChars, hplain, htrimmed.trimChars_eq, List.take_of_length_le h.length_le]

/-! ## What cleaning leaves -/

/-- What can be said of a cleaned text, whatever it was made of. -/
structure Cleaned (limit : Nat) (source cleaned : String) : Prop where
  plain : ∀ c ∈ cleaned.toList, isAlphanumeric c = true ∨ c = ' ' ∨ c = '-' ∨ c = '_' ∨ c = '.'
  length_le : cleaned.toList.length ≤ limit
  head : cleaned.toList.head? ≠ some ' '
  /-- The first characters of the trimmed text. -/
  cut : ∃ trimmed, Trimmed (source.toList.filter isPlain) trimmed ∧
    cleaned.toList = trimmed.take limit ∧
    (cleaned.toList.getLast? = some ' ' ↔ 0 < limit ∧ trimmed[limit - 1]? = some ' ')
  /-- It is left alone by another cleaning unless a space ends it. -/
  stable_iff : clean limit cleaned = cleaned ↔ cleaned.toList.getLast? ≠ some ' '
  again : Clean limit (clean limit cleaned).toList
  settled : clean limit (clean limit cleaned) = clean limit cleaned

theorem toList_clean (limit : Nat) (s : String) :
    (clean limit s).toList = cleanChars limit s.toList := String.toList_ofList

theorem clean_eq_self_iff {s : String} : clean limit s = s ↔ Clean limit s.toList := by
  rw [← cleanChars_eq_self_iff, ← toList_clean, String.toList_inj]

/-- **Cleaning, up to the cut.** -/
theorem clean_cleaned (limit : Nat) (s : String) : Cleaned limit s (clean limit s) := by
  have hlist := toList_clean limit s
  have hplain : ∀ c ∈ (clean limit s).toList,
      isAlphanumeric c = true ∨ c = ' ' ∨ c = '-' ∨ c = '_' ∨ c = '.' := fun c hc =>
    (isPlain_iff c).mp (isPlain_of_mem_cleanChars (hlist ▸ hc))
  have hlength : (clean limit s).toList.length ≤ limit := by
    rw [hlist]
    exact List.length_take_le ..
  have hhead : (clean limit s).toList.head? ≠ some ' ' := by
    rw [hlist]
    exact head?_cleanChars_ne limit s.toList
  have hagain : Clean limit (clean limit (clean limit s)).toList := by
    rw [toList_clean]
    exact clean_cleanChars_of_fits hlength
  refine ⟨hplain, hlength, hhead, ⟨core s.toList, trimmed_core s.toList, hlist, ?_⟩, ?_, hagain,
    clean_eq_self_iff.mpr hagain⟩
  · rw [hlist]
    exact getLast?_cleanChars_iff limit s.toList
  · rw [clean_eq_self_iff]
    exact ⟨Clean.last, fun hlast => ⟨hplain, hlength, hhead, hlast⟩⟩

/-- A cut behind a space leaves it at the end, and cleaning again gives another text. -/
theorem cut_leaves_space : clean 2 "a b" = "a " ∧ ¬ Clean 2 (clean 2 "a b").toList ∧
    clean 2 (clean 2 "a b") ≠ clean 2 "a b" := by
  have hcut : clean 2 "a b" = "a " := by decide +kernel
  refine ⟨hcut, fun h => h.last ?_, ?_⟩
  · rw [hcut]
    rfl
  · rw [hcut]
    decide +kernel

end AfterAction.Text
