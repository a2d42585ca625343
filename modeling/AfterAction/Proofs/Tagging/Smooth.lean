import AfterAction.Proofs.Tagging.Documents

/-!
# Tagging when nothing goes wrong

Where the store takes every document and no ceiling is reached, a closed breaker stays closed and each
call waits, writes and has its document stored: it never pauses and keeps nothing back.
-/

namespace AfterAction.Tagging

/-- No ceiling has been reached. -/
def onTime (t : Tagging) (m : Moment) : Bool :=
  t.calls.all fun call => match call.phase with
    | .writing a => m.timer < a.deadline
    | _ => true

/-- A phase of a call that nothing goes wrong for. -/
def IsSmooth : TagPhase → Prop
  | .waiting | .writing _ | .ended (.ok (.stored _)) => True
  | _ => False

structure Smooth (t : Tagging) : Prop where
  closed : t.breaker.isOpen = false
  calls : ∀ (i : Nat) document p, t.calls[i]? = some ⟨document, p⟩ → IsSmooth p

theorem smooth_new (settings : TagSettings) {breaker : Breaker} (h : breaker.isOpen = false) :
    (Tagging.new settings breaker).Smooth :=
  ⟨h, fun i document p hc => by simp [Tagging.new] at hc⟩

/-- A call that begins gets the next place. -/
theorem start_eq_ok {t t' : Tagging} {run : Run} {m : Moment} {call : Nat}
    (h : t.start run m = .ok (call, t')) : ∃ document,
      TagDocument.ofRun t.settings.limits m.wall run = .ok document ∧
      call = t.documents.length := by
  unfold start at h
  cases hd : TagDocument.ofRun t.settings.limits m.wall run with
  | error fault =>
    rw [hd] at h
    cases h
  | ok document =>
    rw [hd] at h
    cases h
    exact ⟨document, rfl, (List.length_map ..).symm⟩

namespace World

variable {σ : Type} [FileStore σ] {w : World σ} {i : Nat} {document : TagDocument}
  {p p' : TagPhase} {x : Encounter σ} {b : Breaker} {m : Moment} {e : Event σ × Moment}

/-- The store takes what it is sent, and no ceiling has been reached. -/
def favours (w : World σ) (e : Event σ × Moment) : Bool :=
  w.client.onTime e.2 && match e.1 with
    | .answered _ (.error _) => false
    | _ => true

omit [FileStore σ] in
theorem entry_ne_answer (t : Tagging) (document : TagDocument) (m : Moment)
    (answer : Except RemoteFault String) : entry (σ := σ) t document m ≠ .answer answer := by
  unfold entry
  split
  · nofun
  · nofun

/-- A call meets an answer only when it is given one. -/
theorem answered_of_encounter? {e : Event σ} {answer : Except RemoteFault String}
    (h : w.encounter? m e = some (i, .answer answer)) : e = .answered i answer := by
  cases e with
  | start run =>
    simp only [encounter?] at h
    split at h
    · split at h
      · exact absurd (Prod.mk.inj (Option.some.inj h)).2 (entry_ne_answer _ _ _ _)
      · cases h
    · cases h
  | notice j =>
    simp only [encounter?] at h
    split at h
    · split at h
      · exact absurd (Prod.mk.inj (Option.some.inj h)).2 (entry_ne_answer _ _ _ _)
      · cases h
    · cases h
  | answered j answer' =>
    simp only [encounter?] at h
    split at h
    · cases h
      rfl
    · cases h
  | resume j =>
    simp only [encounter?] at h
    split at h
    · split at h <;> cases h
    · cases h
  | expire j =>
    simp only [encounter?] at h
    split at h
    · split at h <;> cases h
    · split at h <;> cases h
    · cases h
  | keep j suffix =>
    simp only [encounter?] at h
    split at h
    · cases h
    · cases h
  | elsewhere change => cases h

/-- A step of a call that nothing goes wrong in. -/
theorem Move.smooth (hm : Move w m i document p x p' b)
    (hc : w.client.calls[i]? = some ⟨document, p⟩) (h : w.client.Smooth)
    (hin : w.client.onTime m = true)
    (hx : ∀ answer, x = .answer answer → ∃ id, answer = .ok id) : IsSmooth p' ∧ b.isOpen = false := by
  have hp : IsSmooth p := h.calls i document p hc
  cases hm with
  | refused _ hb =>
    rw [Breaker.admit?, h.closed] at hb
    cases hb
  | admitted a b _ hb =>
    rw [Breaker.admit?, h.closed] at hb
    cases hb
    exact ⟨trivial, h.closed⟩
  | stored a id =>
    rw [Breaker.succeeded_of_closed h.closed]
    exact ⟨trivial, h.closed⟩
  | retried a fault | gaveUp a fault =>
    obtain ⟨id, hid⟩ := hx _ rfl
    cases hid
  | resumed | expiredPausing | kept => exact hp.elim
  | expiredWriting a hd =>
    have ht := List.all_eq_true.mp hin _ (List.mem_of_getElem? hc)
    exact absurd hd (Nat.not_le.mpr (of_decide_eq_true ht))

/-- What happens to the calls there are, when nothing goes wrong: they stay smooth, and one that ends
has its document stored. -/
structure Stored (w : World σ) (e : Event σ × Moment) : Prop where
  smooth : (w.step e).client.Smooth
  ended : ∀ i document result, (w.step e).client.calls[i]? = some ⟨document, .ended result⟩ →
    w.client.calls[i]? = some ⟨document, .ended result⟩ ∨
    ∃ id a, e.1 = .answered i (.ok id) ∧ w.client.calls[i]? = some ⟨document, .writing a⟩

theorem OneMove.stored (hone : w.OneMove e) (h : w.client.Smooth) (hf : w.favours e = true) :
    w.Stored e := by
  rcases hone with ⟨hs, -⟩ | ⟨i, document, p, x, p', b, hc, hm, hs, henc⟩
  · refine ⟨by rwa [hs], fun j d result hq => .inl ?_⟩
    rwa [hs] at hq
  · obtain ⟨hin, hf⟩ := Bool.and_eq_true_iff.mp hf
    have hx : ∀ answer, x = .answer answer → ∃ id, answer = .ok id := fun answer hx => by
      subst hx
      rw [answered_of_encounter? henc] at hf
      cases answer with
      | ok id => exact ⟨id, rfl⟩
      | error fault => cases hf
    obtain ⟨hp', hb⟩ := hm.smooth hc h hin hx
    refine ⟨?_, fun j d result hq => ?_⟩
    · rw [hs]
      refine ⟨hb, fun j d q hq => ?_⟩
      rw [moved_calls] at hq
      split at hq
      · rename_i hij
        subst hij
        rw [hc] at hq
        cases hq
        exact hp'
      · exact h.calls j d q hq
    · rw [hs, moved_calls] at hq
      split at hq
      · rename_i hij
        subst hij
        rw [hc] at hq
        cases hq
        cases hm with
        | stored a id => exact .inr ⟨id, a, answered_of_encounter? henc, hc⟩
        | kept => exact (h.calls i document _ hc).elim
      · exact .inl hq

omit [FileStore σ] in
theorem smooth_joined (h : w.client.Smooth) (document : TagDocument) :
    (w.joined document).client.Smooth := by
  refine ⟨h.closed, fun j d q hq => ?_⟩
  rw [joined_calls] at hq
  split at hq
  · cases hq
    trivial
  · exact h.calls j d q hq

omit [FileStore σ] in
theorem favours_joined (hin : w.client.onTime m = true) (document : TagDocument) (j : Nat) :
    (w.joined document).favours (.notice j, m) = true := by
  refine Bool.and_eq_true_iff.mpr ⟨?_, rfl⟩
  show (w.client.calls ++ [TagCall.mk document .waiting]).all _ = true
  rw [List.all_append, Bool.and_eq_true_iff]
  exact ⟨hin, rfl⟩

theorem stored_step (h : w.client.Smooth) (hf : w.favours e = true) : w.Stored e := by
  obtain ⟨e, m⟩ := e
  cases e with
  | start run =>
    have hs := step_start w run m
    cases hd : TagDocument.ofRun w.client.settings.limits m.wall run with
    | error fault =>
      rw [hd] at hs
      refine ⟨hs ▸ h, fun i document result hq => .inl ?_⟩
      rwa [hs] at hq
    | ok document =>
      rw [hd] at hs
      have hjoined : (w.joined document).Stored (.notice w.client.calls.length, m) :=
        (oneMove_notice _ _ m).stored (smooth_joined h document)
          (favours_joined (Bool.and_eq_true_iff.mp hf).1 document _)
      refine ⟨hs ▸ hjoined.smooth, fun i d result hq => ?_⟩
      rw [hs] at hq
      rcases hjoined.ended i d result hq with hold | ⟨id, a, he, -⟩
      · rw [joined_calls] at hold
        split at hold
        · cases hold
        · exact .inl hold
      · cases he
  | notice i => exact (oneMove_notice w i m).stored h hf
  | answered i answer => exact (oneMove_answered w i answer m).stored h hf
  | resume i => exact (oneMove_resume w i m).stored h hf
  | expire i => exact (oneMove_expire w i m).stored h hf
  | keep i suffix => exact (oneMove_keep w i suffix m).stored h hf
  | elsewhere change => exact ⟨h, fun i document result hq => .inl hq⟩

end World
end AfterAction.Tagging
