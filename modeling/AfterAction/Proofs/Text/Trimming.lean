import AfterAction.Text.Blank

/-!
Trimmed text, said without the order in which its ends are looked at: what is gone stood at the ends
and was blank, and no end is blank any more. There is one such text for each text.
-/

namespace AfterAction.Text

/-- `core` is what is left of `cs` without the blanks at its ends. -/
structure Trimmed (cs core : List Char) : Prop where
  around : ∃ front back, cs = front ++ core ++ back ∧ ∀ c ∈ front ++ back, isBlank c = true
  head : ∀ c ∈ core.head?, isBlank c = false
  last : ∀ c ∈ core.getLast?, isBlank c = false

variable {cs core front rest : List Char}

/-- What goes at the front is blank, and what comes next is not. -/
theorem exists_front (cs : List Char) : ∃ front, cs = front ++ trimFront cs ∧
    (∀ c ∈ front, isBlank c = true) ∧ ∀ c ∈ (trimFront cs).head?, isBlank c = false := by
  refine ⟨cs.takeWhile isBlank, List.takeWhile_append_dropWhile.symm, ?_, ?_⟩
  · exact List.all_eq_true.mp List.all_takeWhile
  · intro c hc
    have hne : cs.dropWhile isBlank ≠ [] := by
      intro h
      simp [trimFront, h] at hc
    have hhead := List.head_dropWhile_not isBlank hne
    rw [trimFront, List.head?_eq_some_head hne, Option.mem_some] at hc
    rwa [hc] at hhead

theorem trimFront_append (hfront : ∀ c ∈ front, isBlank c = true)
    (hrest : ∀ c ∈ rest.head?, isBlank c = false) : trimFront (front ++ rest) = rest := by
  rw [trimFront, List.dropWhile_append_of_pos hfront]
  cases rest with
  | nil => rfl
  | cons c rest => exact List.dropWhile_cons_of_neg (by simp [hrest c rfl])

theorem trimmed_trimChars (cs : List Char) : Trimmed cs (trimChars cs) := by
  obtain ⟨front, hcs, hfront, hhead⟩ := exists_front cs
  obtain ⟨back, hback, hblank, hlast⟩ := exists_front (trimFront cs).reverse
  -- the blanks at the end come off the reversed text
  have hrest : trimFront cs = trimChars cs ++ back.reverse := by
    have h := congrArg List.reverse hback
    rwa [List.reverse_reverse, List.reverse_append] at h
  refine ⟨⟨front, back.reverse, ?_, ?_⟩, fun c hc => hhead c ?_, fun c hc => hlast c ?_⟩
  · rw [List.append_assoc, ← hrest]
    exact hcs
  · intro c hc
    rcases List.mem_append.mp hc with hc | hc
    · exact hfront c hc
    · exact hblank c (List.mem_reverse.mp hc)
  · rw [hrest, List.head?_append, Option.mem_def.mp hc]
    rfl
  · rwa [trimChars, List.getLast?_reverse] at hc

theorem Trimmed.trimChars_eq (h : Trimmed cs core) : trimChars cs = core := by
  obtain ⟨⟨front, back, rfl, hblank⟩, hhead, hlast⟩ := h
  have hfront : ∀ c ∈ front, isBlank c = true := fun c hc => hblank c (List.mem_append_left _ hc)
  have hback : ∀ c ∈ back.reverse, isBlank c = true := fun c hc =>
    hblank c (List.mem_append_right _ (List.mem_reverse.mp hc))
  cases core with
  | nil =>
    have hall : trimFront (front ++ back) = [] := by
      rw [← List.append_nil (front ++ back)]
      exact trimFront_append hblank (by simp)
    rw [List.append_nil, trimChars, hall]
    rfl
  | cons c core =>
    have hfirst : trimFront (front ++ (c :: core ++ back)) = c :: core ++ back :=
      trimFront_append hfront (by simpa using hhead)
    have hends : ∀ d ∈ (c :: core).reverse.head?, isBlank d = false := by
      rw [List.head?_reverse]
      exact hlast
    rw [trimChars, List.append_assoc, hfirst, List.reverse_append, trimFront_append hback hends,
      List.reverse_reverse]

end AfterAction.Text
