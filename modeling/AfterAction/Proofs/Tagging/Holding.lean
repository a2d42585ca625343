import AfterAction.Proofs.Tagging.World

/-!
# Slots and phases

A slot is held by a call that works on its attempts, or that has not taken notice of its slot yet;
whoever waits in line waits for nothing else. `Held` says so, and every step keeps it.
-/

namespace AfterAction.Tagging.World

variable {σ : Type} {w : World σ}

/-- Who holds a slot, and who waits for one. -/
structure Held (w : World σ) : Prop where
  balanced : w.client.slots.Balanced
  total_pos : 0 < w.client.slots.total
  nodup : (w.client.slots.holders ++ w.client.slots.waiting).Nodup
  holder : ∀ i ∈ w.client.slots.holders, ∃ document p,
    w.client.calls[i]? = some ⟨document, p⟩ ∧ onSlot p = true
  line : ∀ i ∈ w.client.slots.waiting, ∃ document, w.client.calls[i]? = some ⟨document, .waiting⟩
  busy : ∀ i document p, w.client.calls[i]? = some ⟨document, p⟩ → onSlot p = true →
    i ∈ w.client.slots.holders ∨ p = .waiting ∧ i ∈ w.client.slots.waiting

theorem Held.lt_length (h : w.Held) {i : Nat}
    (hi : i ∈ w.client.slots.holders ++ w.client.slots.waiting) : i < w.client.calls.length := by
  rcases List.mem_append.mp hi with hi | hi
  · obtain ⟨_, _, hc, _⟩ := h.holder i hi
    exact (List.getElem?_eq_some_iff.mp hc).1
  · obtain ⟨_, hc⟩ := h.line i hi
    exact (List.getElem?_eq_some_iff.mp hc).1

theorem Held.not_waiting (h : w.Held) {i : Nat} (hi : i ∈ w.client.slots.holders) :
    i ∉ w.client.slots.waiting := fun hw =>
  (List.nodup_append.mp h.nodup).2.2 i hi i hw rfl

theorem held_new (settings : TagSettings) (breaker : Breaker) (files : σ) :
    (new settings breaker files).Held where
  balanced := Slots.balanced_new _
  total_pos := by
    show 0 < max settings.concurrency 1
    omega
  nodup := List.nodup_nil
  holder := fun i hi => by simp [new, Tagging.new, Slots.new] at hi
  line := fun i hi => by simp [new, Tagging.new, Slots.new] at hi
  busy := fun i document p hc => by simp [new, Tagging.new] at hc

theorem Held.joined (h : w.Held) (document : TagDocument) : (w.joined document).Held := by
  have hold : ∀ j ∈ w.client.slots.holders ++ w.client.slots.waiting,
      (w.joined document).client.calls[j]? = w.client.calls[j]? := fun j hj => by
    rw [joined_calls, if_neg (Nat.ne_of_lt (h.lt_length hj))]
  have hnew : (w.joined document).client.calls[w.client.calls.length]? =
      some ⟨document, .waiting⟩ := by rw [joined_calls, if_pos rfl]
  have hperm := Slots.members_ask w.client.slots w.client.calls.length
  have hline : ∀ j ∈ (w.joined document).client.slots.waiting, ∃ d,
      (w.joined document).client.calls[j]? = some ⟨d, .waiting⟩ := fun j hj => by
    rcases Slots.mem_waiting_ask hj with hj | rfl
    · rw [hold j (List.mem_append_right _ hj)]
      exact h.line j hj
    · exact ⟨_, hnew⟩
  refine ⟨h.balanced.ask _, ?_, ?_, ?_, hline, ?_⟩
  · exact Nat.lt_of_lt_of_eq h.total_pos (Slots.total_ask _ _).symm
  · refine hperm.nodup_iff.mpr (List.nodup_cons.mpr ⟨fun hm => ?_, h.nodup⟩)
    exact Nat.lt_irrefl _ (h.lt_length hm)
  · intro j hj
    rcases Slots.mem_holders_ask hj with hj | rfl
    · rw [hold j (List.mem_append_left _ hj)]
      exact h.holder j hj
    · exact ⟨_, _, hnew, rfl⟩
  · intro j d p hc hp
    have hmem : j = w.client.calls.length ∨
        j ∈ w.client.slots.holders ++ w.client.slots.waiting := by
      rw [joined_calls] at hc
      split at hc
      · exact .inl ‹_›
      · exact .inr (List.mem_append.mpr ((h.busy j d p hc hp).imp id And.right))
    rcases List.mem_append.mp (hperm.symm.subset (List.mem_cons.mpr hmem)) with hin | hin
    · exact .inl hin
    · obtain ⟨d', hd'⟩ := hline j hin
      rw [hc] at hd'
      cases hd'
      exact .inr ⟨rfl, hin⟩

variable {i : Nat} {document : TagDocument} {p p' : TagPhase} {x : Encounter σ} {b : Breaker}

/-- A call that keeps its slot, or had none, leaves everybody else in place. -/
theorem Held.stays (h : w.Held) (hc : w.client.calls[i]? = some ⟨document, p⟩)
    (hs : (onSlot p && !onSlot p') = false) (hi : i ∈ w.client.slots.holders ↔ onSlot p' = true)
    (hnot : i ∉ w.client.slots.waiting) : (w.moved i x p p' b).Held := by
  have hslots : (w.moved i x p p' b).client.slots = w.client.slots := by
    simp only [moved, hs]
    rfl
  refine ⟨hslots ▸ h.balanced, hslots ▸ h.total_pos, hslots ▸ h.nodup, fun j hj => ?_,
    fun j hj => ?_, fun j d q hd hq => ?_⟩
  · rw [hslots] at hj
    rcases Decidable.em (j = i) with rfl | hne
    · exact ⟨document, p', moved_calls_self hc, hi.mp hj⟩
    · rw [moved_calls_ne w hne]
      exact h.holder j hj
  · rw [hslots] at hj
    have hne : j ≠ i := fun he => hnot (he ▸ hj)
    rw [moved_calls_ne w hne]
    exact h.line j hj
  · rw [hslots]
    rcases Decidable.em (j = i) with rfl | hne
    · cases (moved_calls_self hc).symm.trans hd
      exact .inl (hi.mpr hq)
    · exact h.busy j d q ((moved_calls_ne w hne).symm.trans hd) hq

/-- A call that gives its slot back hands it to the head of the line, who still waits. -/
theorem Held.leaves (h : w.Held) (hc : w.client.calls[i]? = some ⟨document, p⟩)
    (hp : onSlot p = true) (hp' : onSlot p' = false) (hi : i ∈ w.client.slots.holders) :
    (w.moved i x p p' b).Held := by
  have hslots : (w.moved i x p p' b).client.slots = w.client.slots.release i := by
    simp [moved, hp, hp']
  have hmem := Slots.members_release hi
  have hgone : ∀ j ∈ (w.client.slots.release i).holders ++ (w.client.slots.release i).waiting,
      j ≠ i := fun j hj he => by
    rw [hmem] at hj
    exact ((h.nodup.mem_erase_iff).mp hj).1 he
  have hline : ∀ j ∈ w.client.slots.waiting, ∃ d,
      (w.moved i x p p' b).client.calls[j]? = some ⟨d, .waiting⟩ := fun j hj => by
    have hne : j ≠ i := fun he => h.not_waiting hi (he ▸ hj)
    rw [moved_calls_ne w hne]
    exact h.line j hj
  refine ⟨hslots ▸ h.balanced.release i, ?_, ?_, fun j hj => ?_, fun j hj => ?_,
    fun j d q hd hq => ?_⟩
  · rw [hslots, Slots.total_release]
    exact h.total_pos
  · rw [hslots, hmem]
    exact h.nodup.erase i
  · rw [hslots] at hj
    rcases Slots.mem_holders_release hj with hold | hw
    · rw [moved_calls_ne w (hgone j (List.mem_append_left _ hj))]
      exact h.holder j hold
    · obtain ⟨d, hd⟩ := hline j hw
      exact ⟨d, .waiting, hd, rfl⟩
  · rw [hslots] at hj
    exact hline j (Slots.mem_waiting_release hj)
  · rw [hslots]
    have hne : j ≠ i := by
      rintro rfl
      cases (moved_calls_self hc).symm.trans hd
      exact absurd hq (by simp [hp'])
    have hin : j ∈ (w.client.slots.release i).holders ++ (w.client.slots.release i).waiting := by
      rw [hmem, List.mem_erase_of_ne hne]
      exact List.mem_append.mpr
        ((h.busy j d q ((moved_calls_ne w hne).symm.trans hd) hq).imp id And.right)
    refine (List.mem_append.mp hin).imp id fun hw => ⟨?_, hw⟩
    obtain ⟨d', hd'⟩ := hline j (Slots.mem_waiting_release hw)
    cases hd.symm.trans hd'
    rfl

/-- What others do to the files changes nothing for slots and calls. -/
theorem Held.elsewhere (h : w.Held) (files : σ) : ({ w with files } : World σ).Held :=
  ⟨h.balanced, h.total_pos, h.nodup, h.holder, h.line, h.busy⟩

variable [FileStore σ] {m : Moment}

/-- A call that moves on its slot has one, whatever the slot is still good for. -/
theorem Move.holds (hm : Move w m i document p x p' b) (h : w.Held)
    (hc : w.client.calls[i]? = some ⟨document, p⟩) (hp : onSlot p = true) :
    i ∈ w.client.slots.holders := by
  have hbusy := h.busy i document p hc hp
  cases hm with
  | refused hs | admitted _ _ hs => exact of_decide_eq_true hs
  | kept => cases hp
  | _ => exact hbusy.resolve_right (fun hw => nomatch hw.1)

/-- Nobody waits for a slot again. -/
theorem Move.onSlot_of_after (hm : Move w m i document p x p' b) (hp : onSlot p' = true) :
    onSlot p = true ∧ p' ≠ .waiting := by
  cases hm with
  | refused | stored | gaveUp | expiredWriting | expiredPausing | kept => cases hp
  | _ => exact ⟨rfl, nofun⟩

theorem Held.moved (h : w.Held) (hc : w.client.calls[i]? = some ⟨document, p⟩)
    (hm : Move w m i document p x p' b) : (w.moved i x p p' b).Held := by
  cases hp : onSlot p with
  | false =>
    have hp' : onSlot p' = false := Bool.eq_false_iff.mpr fun hp' => by
      rw [(hm.onSlot_of_after hp').1] at hp
      cases hp
    refine h.stays hc (by rw [hp]; rfl) ⟨fun hi => ?_, fun he => ?_⟩ fun hw => ?_
    · obtain ⟨d, q, hd, hq⟩ := h.holder i hi
      cases hc.symm.trans hd
      exact absurd hq (by simp [hp])
    · exact absurd he (by simp [hp'])
    · obtain ⟨d, hd⟩ := h.line i hw
      cases hc.symm.trans hd
      cases hp
  | true =>
    have hi := hm.holds h hc hp
    cases hp' : onSlot p' with
    | true =>
      exact h.stays hc (by rw [hp, hp']; rfl) ⟨fun _ => hp', fun _ => hi⟩ (h.not_waiting hi)
    | false => exact h.leaves hc hp hp' hi

theorem Held.step (h : w.Held) (e : Event σ × Moment) : (w.step e).Held :=
  step_induction (fun _ _ _ document h _ => h.joined document)
    (fun _ _ _ _ _ _ _ _ h hc hm => h.moved hc hm)
    (fun _ _ h => h.elsewhere _) h e

theorem Held.play (h : w.Held) (es : List (Event σ × Moment)) : (w.play es).Held :=
  play_induction (fun _ e h => h.step e) h es

end AfterAction.Tagging.World
