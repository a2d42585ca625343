import Mathlib.Data.Finset.Card

/-!
# Each once, in order of first appearance

Techniques and tactics are lists from which repetitions are dropped. What is left has none, is as
long as there are different entries, and keeps the order in which they first appear.
-/

namespace AfterAction

variable {α : Type} [DecidableEq α]

theorem nodup_eraseDups (l : List α) : l.eraseDups.Nodup := by
  -- the tail is freed of the head before it is looked at, so the induction is on the length
  induction hn : l.length using Nat.strong_induction_on generalizing l with
  | h n ih =>
    cases l with
    | nil => exact List.nodup_nil
    | cons a rest =>
      rw [List.eraseDups_cons]
      have hshort := List.length_filter_le (fun b => !b == a) rest
      rw [List.length_cons] at hn
      refine List.nodup_cons.mpr ⟨fun hmem => ?_, ih _ (by omega) _ rfl⟩
      obtain ⟨-, hne⟩ := List.mem_filter.mp (List.mem_eraseDups.mp hmem)
      simp at hne

theorem toFinset_eraseDups (l : List α) : l.eraseDups.toFinset = l.toFinset := by
  ext a
  rw [List.mem_toFinset, List.mem_toFinset, List.mem_eraseDups]

theorem length_eraseDups (l : List α) : l.eraseDups.length = l.toFinset.card := by
  rw [← toFinset_eraseDups, List.toFinset_card_of_nodup (nodup_eraseDups l)]

/-- What is kept of a list stands in the order in which it first appears there. -/
theorem pairwise_idxOf_eraseDups (p : α → Bool) (l : List α) :
    (l.filter p).eraseDups.Pairwise fun a b => l.idxOf a < l.idxOf b := by
  induction l generalizing p with
  | nil => exact List.Pairwise.nil
  | cons x rest ih =>
    -- behind the head, whatever differs from it appears one place later
    have hlater : ∀ q : α → Bool, (∀ a, q a = true → a ≠ x) →
        (rest.filter q).eraseDups.Pairwise
          fun a b => (x :: rest).idxOf a < (x :: rest).idxOf b := by
      intro q hq
      refine (ih q).imp_of_mem fun ha hb hab => ?_
      have hne : ∀ a ∈ (rest.filter q).eraseDups, x ≠ a := fun a h =>
        (hq a (List.mem_filter.mp (List.mem_eraseDups.mp h)).2).symm
      rw [List.idxOf_cons_ne _ (hne _ ha), List.idxOf_cons_ne _ (hne _ hb)]
      exact Nat.succ_lt_succ hab
    by_cases hx : p x = true
    · rw [List.filter_cons_of_pos hx, List.eraseDups_cons, List.filter_filter]
      refine List.Pairwise.cons (fun a ha => ?_) (hlater _ fun a ha => by simp_all)
      obtain ⟨-, hne⟩ := List.mem_filter.mp (List.mem_eraseDups.mp ha)
      rw [List.idxOf_cons_self, List.idxOf_cons_ne _ (by rintro rfl; simp at hne)]
      exact Nat.succ_pos _
    · rw [List.filter_cons_of_neg hx]
      refine hlater p fun a ha => ?_
      rintro rfl
      exact hx ha

/-- The entries of `l` that have the property, each once, in the order in which they first appear. -/
structure FirstAppearances (l : List α) (p : α → Prop) (kept : List α) : Prop where
  nodup : kept.Nodup
  mem_iff : ∀ a, a ∈ kept ↔ a ∈ l ∧ p a
  inOrder : kept.Pairwise fun a b => l.idxOf a < l.idxOf b

theorem firstAppearances_eraseDups (p : α → Bool) (l : List α) :
    FirstAppearances l (p · = true) (l.filter p).eraseDups where
  nodup := nodup_eraseDups _
  mem_iff a := by rw [List.mem_eraseDups, List.mem_filter]
  inOrder := pairwise_idxOf_eraseDups p l

end AfterAction
