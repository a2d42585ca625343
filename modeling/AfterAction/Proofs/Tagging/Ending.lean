import AfterAction.Proofs.Tagging.Holding

/-!
# Every call can end

As long as a call has not ended, some call can go on by itself: the ceiling bounds all waiting for
the store, and whoever waits in line waits for one who holds a slot. What the client still has to do
gets less with each such step, so every call comes to its end, however long the store is silent.
-/

namespace AfterAction

/-- How many steps of its own a call is away from its end. -/
def TagPhase.left : TagPhase → Nat
  | .waiting => 3
  | .writing _ | .pausing .. => 2
  | .keeping _ => 1
  | .ended _ => 0

namespace Tagging

/-- What happens by the client's own doing, without the store's. -/
def Event.isOwn {σ : Type} : Event σ → Bool
  | .notice _ | .expire _ | .keep .. => true
  | .start _ | .answered .. | .resume _ | .elsewhere _ => false

namespace World

variable {σ : Type} {w : World σ} {i : Nat} {document : TagDocument} {p p' : TagPhase}

/-- What all calls still have to do. -/
def left (w : World σ) : Nat :=
  (w.client.calls.map fun call => call.phase.left).foldr (· + ·) 0

/-- All calls have ended. -/
def Quiet (w : World σ) : Prop :=
  ∀ (i : Nat) (document : TagDocument) (p : TagPhase),
    w.client.calls[i]? = some ⟨document, p⟩ → ∃ result, p = .ended result

theorem quiet_iff : w.Quiet ↔ ∀ call ∈ w.client.calls, call.result?.isSome = true := by
  constructor
  · intro h call hcall
    obtain ⟨i, hi⟩ := List.mem_iff_getElem?.mp hcall
    obtain ⟨result, hp⟩ := h i call.document call.phase hi
    rw [TagCall.result?, hp]
    rfl
  · intro h i document p hc
    have hresult := h _ (List.mem_of_getElem? hc)
    cases p with
    | ended result => exact ⟨result, rfl⟩
    | _ => cases hresult

instance : Decidable w.Quiet := decidable_of_iff' _ quiet_iff

/-- A run that the client can do by itself, in order of time and not before `t`. -/
structure OwnRun (t : Nat) (es : List (Event σ × Moment)) : Prop where
  own : ∀ e ∈ es, e.1.isOwn = true
  later : ∀ e ∈ es, t ≤ e.2.timer
  inOrder : es.Pairwise fun e e' => e.2.timer ≤ e'.2.timer

theorem sum_modify_lt {calls : List TagCall} (hc : calls[i]? = some ⟨document, p⟩)
    (h : p'.left < p.left) :
    ((calls.modify i fun call => { call with phase := p' }).map
      fun call => call.phase.left).foldr (· + ·) 0 <
      (calls.map fun call => call.phase.left).foldr (· + ·) 0 := by
  induction calls generalizing i with
  | nil => cases hc
  | cons call rest ih =>
    cases i with
    | zero =>
      cases hc
      simpa using h
    | succ i =>
      have := ih hc
      simpa using this

theorem moved_left_lt {x : Encounter σ} {b : Breaker}
    (hc : w.client.calls[i]? = some ⟨document, p⟩) (h : p'.left < p.left) :
    (w.moved i x p p' b).left < w.left := sum_modify_lt hc h

variable [FileStore σ]

/-- A step of the client's own, from some time on, that leaves it less to do. -/
def GoesOn (w : World σ) : Prop :=
  ∃ e, e.isOwn = true ∧ ∃ due, ∀ m : Moment, due ≤ m.timer → (w.step (e, m)).left < w.left

/-- Only retries and their pauses do not bring a call closer to its end. -/
theorem Move.left_lt {m : Moment} {x : Encounter σ} {b : Breaker}
    (hm : Move w m i document p x p' b)
    (h : p = .waiting ∨ x = .ceiling ∨ ∃ reason, p = .keeping reason) : p'.left < p.left := by
  cases hm with
  | retried => simp at h
  | resumed => simp at h
  | _ => simp [TagPhase.left]

/-- A call that works on its attempts can be stopped by the ceiling. -/
theorem expire_left_lt {a : Attempt} {m : Moment}
    (hc : w.client.calls[i]? = some ⟨document, p⟩)
    (hp : p = .writing a ∨ ∃ wake, p = .pausing a wake) (hm : a.deadline ≤ m.timer) :
    (w.step (.expire i, m)).left < w.left := by
  obtain ⟨p', b, hmove, hs⟩ :=
    (oneMove_expire w i m).of_encounter (encounter?_expire hc hp hm) hc
  rw [hs]
  exact moved_left_lt hc (hmove.left_lt (.inr (.inl rfl)))

theorem keep_left_lt {reason : KeptReason}
    (hc : w.client.calls[i]? = some ⟨document, .keeping reason⟩) (suffix : UInt32) (m : Moment) :
    (w.step (.keep i suffix, m)).left < w.left := by
  obtain ⟨k, henc⟩ := encounter?_keep hc suffix m
  obtain ⟨p', b, hmove, hs⟩ := (oneMove_keep w i suffix m).of_encounter henc hc
  rw [hs]
  exact moved_left_lt hc (hmove.left_lt (.inr (.inr ⟨reason, rfl⟩)))

theorem notice_left_lt (hc : w.client.calls[i]? = some ⟨document, .waiting⟩)
    (hi : i ∈ w.client.slots.holders) (m : Moment) : (w.step (.notice i, m)).left < w.left := by
  obtain ⟨p', b, hmove, hs⟩ :=
    (oneMove_notice w i m).of_encounter (encounter?_notice hc (decide_eq_true hi) m) hc
  rw [hs]
  exact moved_left_lt hc (hmove.left_lt (.inl rfl))

theorem goesOn_of_phase (hc : w.client.calls[i]? = some ⟨document, p⟩) (hw : p ≠ .waiting)
    (he : ∀ result, p ≠ .ended result) : w.GoesOn := by
  cases p with
  | waiting => exact absurd rfl hw
  | writing a =>
    exact ⟨.expire i, rfl, a.deadline, fun m hm => expire_left_lt hc (.inl rfl) hm⟩
  | pausing a wake =>
    exact ⟨.expire i, rfl, a.deadline, fun m hm => expire_left_lt hc (.inr ⟨wake, rfl⟩) hm⟩
  | keeping reason => exact ⟨.keep i 0, rfl, 0, fun m _ => keep_left_lt hc 0 m⟩
  | ended result => exact absurd rfl (he result)

theorem Held.goesOn_of_holder (h : w.Held) (hi : i ∈ w.client.slots.holders) : w.GoesOn := by
  obtain ⟨d, p, hc, hp⟩ := h.holder i hi
  by_cases hw : p = .waiting
  · subst hw
    exact ⟨.notice i, rfl, 0, fun m _ => notice_left_lt hc hi m⟩
  · refine goesOn_of_phase hc hw fun result he => ?_
    subst he
    cases hp

/-- **As long as a call has not ended, some call can go on by itself.** A call that waits in line
waits for a holder, since no slot is idle then. -/
theorem Held.goesOn (h : w.Held) (hc : w.client.calls[i]? = some ⟨document, p⟩)
    (he : ∀ result, p ≠ .ended result) : w.GoesOn := by
  by_cases hw : p = .waiting
  · subst hw
    rcases h.busy i document .waiting hc rfl with hi | ⟨_, hi⟩
    · exact h.goesOn_of_holder hi
    · have hidle := h.balanced.busy (List.ne_nil_of_mem hi)
      have hpos : 0 < w.client.slots.holders.length := by
        have := h.balanced.held
        have := h.total_pos
        omega
      exact h.goesOn_of_holder (List.getElem_mem hpos)
  · exact goesOn_of_phase hc hw he

/-- A call keeps its document, and there it stays. -/
theorem step_calls (e : Event σ × Moment) {i : Nat} {document : TagDocument}
    (h : ∃ p, w.client.calls[i]? = some ⟨document, p⟩) :
    ∃ p, (w.step e).client.calls[i]? = some ⟨document, p⟩ := by
  refine step_induction (P := fun w => ∃ p, w.client.calls[i]? = some ⟨document, p⟩)
    (fun w _ _ d h _ => ?_) (fun w _ j d p x p' b h hc _ => ?_) (fun _ _ h => h) h e
  · obtain ⟨p, hc⟩ := h
    have hlt := (List.getElem?_eq_some_iff.mp hc).1
    rw [joined_calls, if_neg (Nat.ne_of_lt hlt)]
    exact ⟨p, hc⟩
  · obtain ⟨q, hq⟩ := h
    rw [moved_calls]
    split
    · rw [hq]
      exact ⟨p', rfl⟩
    · exact ⟨q, hq⟩

theorem play_calls (es : List (Event σ × Moment)) {i : Nat} {document : TagDocument}
    (h : ∃ p, w.client.calls[i]? = some ⟨document, p⟩) :
    ∃ p, (w.play es).client.calls[i]? = some ⟨document, p⟩ :=
  play_induction (P := fun w => ∃ p, w.client.calls[i]? = some ⟨document, p⟩)
    (fun _ e h => step_calls e h) h es

/-- A call that begins stands last in the list of calls. -/
theorem step_start_calls {run : Run} {m : Moment}
    (hd : TagDocument.ofRun w.client.settings.limits m.wall run = .ok document) :
    ∃ p, (w.step (.start run, m)).client.calls[w.client.calls.length]? = some ⟨document, p⟩ := by
  rw [step_start, hd]
  refine step_calls _ ⟨.waiting, ?_⟩
  rw [joined_calls, if_pos rfl]

/-- **The client alone can bring all its calls to their ends.** -/
theorem Held.rests (h : w.Held) (t : Nat) : ∃ es, OwnRun t es ∧ (w.play es).Quiet := by
  induction hn : w.left using Nat.strongRecOn generalizing w t with
  | ind n ih =>
    by_cases hq : w.Quiet
    · exact ⟨[], ⟨nofun, nofun, .nil⟩, hq⟩
    · obtain ⟨i, document, p, hc, he⟩ : ∃ (i : Nat) (document : TagDocument) (p : TagPhase),
          w.client.calls[i]? = some ⟨document, p⟩ ∧ ∀ result, p ≠ .ended result := by
        simpa [Quiet] using hq
      obtain ⟨e, hown, due, hless⟩ := h.goesOn hc he
      let m : Moment := ⟨⟨0, 0, 0⟩, 0, max t due⟩
      obtain ⟨es, hes, hrest⟩ := ih _ (hn ▸ hless m (Nat.le_max_right ..)) (h.step _) m.timer rfl
      refine ⟨(e, m) :: es, ⟨?_, ?_, ?_⟩, hrest⟩
      · exact List.forall_mem_cons.mpr ⟨hown, hes.own⟩
      · exact List.forall_mem_cons.mpr ⟨Nat.le_max_left .., fun e' he' =>
          Nat.le_trans (Nat.le_max_left ..) (hes.later e' he')⟩
      · exact List.pairwise_cons.mpr ⟨hes.later, hes.inOrder⟩

/-- Every call can be brought to its end by the client alone. -/
theorem Held.ends (h : w.Held) (hc : ∃ p, w.client.calls[i]? = some ⟨document, p⟩) (t : Nat) :
    ∃ es, OwnRun t es ∧
      ∃ result, (w.play es).client.calls[i]? = some ⟨document, .ended result⟩ := by
  obtain ⟨es, hes, hquiet⟩ := h.rests t
  obtain ⟨p, hp⟩ := play_calls es hc
  obtain ⟨result, rfl⟩ := hquiet i document p hp
  exact ⟨es, hes, result, hp⟩

end World
end Tagging
end AfterAction
