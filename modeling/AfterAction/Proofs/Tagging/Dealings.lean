import AfterAction.Proofs.Breaker.Loans
import AfterAction.Proofs.Tagging.Holding

/-!
# What a call does with what it shares

The calls of a client share its slots and its breaker. `trace` records what each of them does with
these in the events of a run, read off the phases that the call comes from and goes to. The record
is exact: done over on the slots and the breaker that the client began with, each dealing is possible
in its turn, and together they lead to the slots and the breaker that the client has. And it is in
order: `Dealt` says what a call has done by the time it is in a phase.
-/

namespace AfterAction.Tagging

/-- What a call does with the slots and the breaker, and that its record is done. -/
inductive Dealing
  | asked
  | released
  | breaker (dealing : Breaker.Dealing)
  | recorded
  deriving DecidableEq, Repr

def Dealing.breaker? : Dealing → Option Breaker.Dealing
  | .breaker dealing => some dealing
  | _ => none

structure Shared where
  slots : Slots Nat
  breaker : Breaker
  deriving DecidableEq, Repr

namespace Shared

/-- What is shared after a dealing; none if the dealing is not possible. -/
def deal? (s : Shared) : Nat × Dealing → Option Shared
  | (i, .asked) => some { s with slots := s.slots.ask i }
  | (i, .released) => if s.slots.holds i then some { s with slots := s.slots.release i } else none
  | (_, .breaker dealing) => (s.breaker.deal? dealing).map fun breaker => { s with breaker }
  | (_, .recorded) => some s

def replay? (s : Shared) (trace : List (Nat × Dealing)) : Option Shared := trace.foldlM deal? s

theorem replay?_append {s s' : Shared} {trace : List (Nat × Dealing)}
    (h : s.replay? trace = some s') (trace' : List (Nat × Dealing)) :
    s.replay? (trace ++ trace') = s'.replay? trace' := by
  unfold replay? at h ⊢
  rw [List.foldlM_append, h]
  rfl

/-- Dealings with the breaker, done over by themselves. -/
theorem breaker_replay? {s s' : Shared} {trace : List (Nat × Dealing)}
    (h : s.replay? trace = some s') :
    s.breaker.replay? (trace.filterMap (·.2.breaker?)) = some s'.breaker := by
  induction trace generalizing s with
  | nil =>
    cases h
    rfl
  | cons entry trace ih =>
    rw [replay?, List.foldlM_cons] at h
    obtain ⟨s₁, hentry, htrace⟩ := Option.bind_eq_some_iff.mp h
    have hrest := ih htrace
    obtain ⟨i, dealing⟩ := entry
    cases dealing with
    | asked | recorded =>
      cases hentry
      exact hrest
    | released =>
      simp only [deal?] at hentry
      split at hentry <;> cases hentry
      exact hrest
    | breaker dealing =>
      obtain ⟨b, hb, rfl⟩ := Option.map_eq_some_iff.mp hentry
      exact Breaker.replay?_append ((Breaker.replay?_singleton _ _).trans hb) hrest

end Shared

/-- What a call does on its way from one phase to another. -/
def dealt (m : Moment) : TagPhase → TagPhase → List Dealing
  | .waiting, .writing a => [.breaker (.granted a.admission m.steady)]
  | .waiting, .keeping _ => [.breaker (.refused m.steady), .released]
  | .writing a, .ended _ => [.released, .breaker (.succeeded a.admission)]
  | .writing a, .keeping _ | .pausing a _, .keeping _ =>
    [.released, .breaker (.failed a.admission m.steady)]
  | .keeping _, .ended _ => [.recorded]
  | _, _ => []

theorem dealt_self (m : Moment) (p : TagPhase) : dealt m p p = [] := by
  cases p <;> rfl

/-- What the call of an event does in it, which has no phase before it begins. -/
def did (m : Moment) : Option TagPhase → Option TagPhase → List Dealing
  | some p, some p' => dealt m p p'
  | none, some p' => .asked :: dealt m .waiting p'
  | _, none => []

theorem did_self (m : Moment) (p : Option TagPhase) : did m p p = [] := by
  cases p with
  | none => rfl
  | some p => exact dealt_self m p

/-- The admission of a call that works on its attempts. -/
def admission? : TagPhase → Option Admission
  | .writing a | .pausing a _ => some a.admission
  | .waiting | .keeping _ | .ended _ => none

namespace World

variable {σ : Type} {w : World σ} {i : Nat} {document : TagDocument} {p p' : TagPhase}
  {x : Encounter σ} {b : Breaker} {m : Moment}

def shared (w : World σ) : Shared := ⟨w.client.slots, w.client.breaker⟩

/-- The call that an event is about. A call that begins comes last. -/
def place? (w : World σ) : Event σ → Option Nat
  | .start _ => some w.client.calls.length
  | .notice i | .answered i _ | .resume i | .expire i | .keep i _ => some i
  | .elsewhere _ => none

variable [FileStore σ]

/-- What is done in an event. -/
def dealings (w : World σ) (e : Event σ × Moment) : List (Nat × Dealing) :=
  match w.place? e.1 with
  | some i => (did e.2 (w.client.phase? i) ((w.step e).client.phase? i)).map (Prod.mk i)
  | none => []

def trace (w : World σ) : List (Event σ × Moment) → List (Nat × Dealing)
  | [] => []
  | e :: es => w.dealings e ++ (w.step e).trace es

theorem place?_of_encounter? {e : Event σ} (h : w.encounter? m e = some (i, x)) :
    w.place? e = some i := by
  cases e with
  | elsewhere change => cases h
  | answered j answer =>
    simp only [encounter?] at h
    split at h <;> cases h
    rfl
  | keep j suffix =>
    simp only [encounter?] at h
    split at h <;> cases h
    rfl
  | start run | notice j | resume j =>
    simp only [encounter?] at h
    split at h
    · split at h
      · cases h
        rfl
      · cases h
    · cases h
  | expire j =>
    simp only [encounter?] at h
    split at h
    · split at h
      · cases h
        rfl
      · cases h
    · split at h
      · cases h
        rfl
      · cases h
    · cases h

theorem dealings_of_place? {e : Event σ × Moment} (h : w.place? e.1 = some i) :
    w.dealings e =
      (did e.2 (w.client.phase? i) ((w.step e).client.phase? i)).map (Prod.mk i) := by
  rw [dealings, h]

theorem dealings_of_step_eq {e : Event σ × Moment} (h : w.step e = w) : w.dealings e = [] := by
  cases hp : w.place? e.1 with
  | none => rw [dealings, hp]
  | some i => rw [dealings_of_place? hp, h, did_self, List.map_nil]

theorem dealings_of_moved {e : Event σ × Moment} (hc : w.client.calls[i]? = some ⟨document, p⟩)
    (hs : w.step e = w.moved i x p p' b) (hx : w.encounter? e.2 e.1 = some (i, x)) :
    w.dealings e = (dealt e.2 p p').map (Prod.mk i) := by
  rw [dealings_of_place? (place?_of_encounter? hx), hs, phase?_of_call hc,
    phase?_of_call (moved_calls_self hc)]
  rfl

/-- A call that begins asks for a slot, and goes on as one that notices its slot. -/
theorem dealings_start {run : Run}
    (hd : TagDocument.ofRun w.client.settings.limits m.wall run = .ok document) :
    w.dealings (.start run, m) =
      (w.client.calls.length, .asked) ::
        (w.joined document).dealings (.notice w.client.calls.length, m) := by
  have hbefore : w.client.phase? w.client.calls.length = none := by simp [phase?]
  have hcall : (w.joined document).client.calls[w.client.calls.length]? =
      some ⟨document, .waiting⟩ := by rw [joined_calls, if_pos rfl]
  have hjoined := phase?_of_call hcall
  have hstep : w.step (.start run, m) =
      (w.joined document).step (.notice w.client.calls.length, m) := by rw [step_start, hd]
  obtain ⟨p', hafter⟩ : ∃ p', ((w.joined document).step
      (.notice w.client.calls.length, m)).client.phase? w.client.calls.length = some p' := by
    rcases oneMove_notice (w.joined document) w.client.calls.length m with
      ⟨hs, -⟩ | ⟨j, d, q, x, q', b, hj, -, hs, hx⟩
    · rw [hs]
      exact ⟨_, hjoined⟩
    · have hplace := place?_of_encounter? hx
      cases hplace
      rw [hs]
      exact ⟨q', phase?_of_call (moved_calls_self hj)⟩
  rw [dealings_of_place? (i := w.client.calls.length) rfl,
    dealings_of_place? (w := w.joined document) (i := w.client.calls.length) rfl, hbefore, hjoined,
    hstep, hafter]
  rfl

/-- What new calls, moves and others' use of the files keep of a world and what was done so far, a
step keeps. -/
theorem dealings_induction {P : World σ → List (Nat × Dealing) → Prop}
    (hjoin : ∀ w document ds, P w ds →
      P (w.joined document) (ds ++ [(w.client.calls.length, .asked)]))
    (hmove : ∀ w m i document p x p' b ds, P w ds → w.client.calls[i]? = some ⟨document, p⟩ →
      Move w m i document p x p' b →
      P (w.moved i x p p' b) (ds ++ (dealt m p p').map (Prod.mk i)))
    (helse : ∀ w (change : σ → σ) ds, P w ds → P { w with files := change w.files } ds)
    {w : World σ} {ds : List (Nat × Dealing)} (h : P w ds) (e : Event σ × Moment) :
    P (w.step e) (ds ++ w.dealings e) := by
  have hone : ∀ {w : World σ} {ds e}, P w ds → w.OneMove e → P (w.step e) (ds ++ w.dealings e) := by
    rintro w ds e h (⟨hs, -⟩ | ⟨i, document, p, x, p', b, hc, hm, hs, hx⟩)
    · rw [dealings_of_step_eq hs, hs, List.append_nil]
      exact h
    · rw [dealings_of_moved hc hs hx, hs]
      exact hmove w e.2 i document p x p' b ds h hc hm
  obtain ⟨e, m⟩ := e
  cases e with
  | start run =>
    cases hd : TagDocument.ofRun w.client.settings.limits m.wall run with
    | error fault =>
      have hs : w.step (.start run, m) = w := by rw [step_start, hd]
      rw [dealings_of_step_eq hs, hs, List.append_nil]
      exact h
    | ok document =>
      rw [dealings_start hd, step_start, hd, List.append_cons]
      exact hone (hjoin w document ds h) (oneMove_notice _ _ _)
  | notice i => exact hone h (oneMove_notice w i m)
  | answered i answer => exact hone h (oneMove_answered w i answer m)
  | resume i => exact hone h (oneMove_resume w i m)
  | expire i => exact hone h (oneMove_expire w i m)
  | keep i suffix => exact hone h (oneMove_keep w i suffix m)
  | elsewhere change =>
    have hs : w.step (.elsewhere change, m) = { w with files := change w.files } := by
      simp [step, happen, encounter?]
    have hd : w.dealings (.elsewhere change, m) = [] := rfl
    rw [hs, hd, List.append_nil]
    exact helse w change ds h

/-- What every step keeps, a run keeps. -/
theorem trace_induction {P : World σ → List (Nat × Dealing) → Prop}
    (hstep : ∀ w ds e, P w ds → P (w.step e) (ds ++ w.dealings e)) {ds : List (Nat × Dealing)}
    (h : P w ds) (es : List (Event σ × Moment)) : P (w.play es) (ds ++ w.trace es) := by
  induction es generalizing w ds with
  | nil =>
    rw [trace, List.append_nil]
    exact h
  | cons e es ih =>
    rw [trace, ← List.append_assoc]
    exact ih (hstep w ds e h)

/-! ## The record is exact -/

/-- Done over, what a call does in a move leads to the slots and the breaker after it. -/
theorem Move.replay (hm : Move w m i document p x p' b) (h : w.Held)
    (hc : w.client.calls[i]? = some ⟨document, p⟩) :
    w.shared.replay? ((dealt m p p').map (Prod.mk i)) = some (w.moved i x p p' b).shared := by
  have hholds : onSlot p = true → w.client.slots.holds i = true := fun hp =>
    decide_eq_true (hm.holds h hc hp)
  cases hm with
  | refused hs hb =>
    simp [Shared.replay?, Shared.deal?, dealt, shared, moved, onSlot, hs, Breaker.deal?_refused hb]
  | admitted a b hs hb =>
    simp [Shared.replay?, Shared.deal?, dealt, shared, moved, onSlot, Breaker.deal?_granted hb]
  | stored a id =>
    simp [Shared.replay?, Shared.deal?, dealt, shared, moved, onSlot, hholds rfl, Breaker.deal?]
  | gaveUp a fault _ =>
    simp [Shared.replay?, Shared.deal?, dealt, shared, moved, onSlot, hholds rfl, Breaker.deal?]
  | expiredWriting a _ =>
    simp [Shared.replay?, Shared.deal?, dealt, shared, moved, onSlot, hholds rfl, Breaker.deal?]
  | expiredPausing a wake _ =>
    simp [Shared.replay?, Shared.deal?, dealt, shared, moved, onSlot, hholds rfl, Breaker.deal?]
  | retried | resumed | kept =>
    simp [Shared.replay?, Shared.deal?, dealt, shared, moved, onSlot]

theorem Held.replay_step (h : w.Held) {s : Shared} {ds : List (Nat × Dealing)}
    (hds : s.replay? ds = some w.shared) (e : Event σ × Moment) :
    s.replay? (ds ++ w.dealings e) = some (w.step e).shared := by
  refine (dealings_induction (P := fun w ds => w.Held ∧ s.replay? ds = some w.shared)
    ?_ ?_ ?_ ⟨h, hds⟩ e).2
  · rintro w document ds ⟨hheld, hds⟩
    refine ⟨hheld.joined document, ?_⟩
    rw [Shared.replay?_append hds]
    rfl
  · rintro w m i document p x p' b ds ⟨hheld, hds⟩ hc hm
    refine ⟨hheld.moved hc hm, ?_⟩
    rw [Shared.replay?_append hds]
    exact hm.replay hheld hc
  · rintro w change ds ⟨hheld, hds⟩
    exact ⟨hheld.elsewhere _, hds⟩

/-- **What the calls did with the slots and the breaker is all that became of these.** -/
theorem Held.replay_play (h : w.Held) (es : List (Event σ × Moment)) :
    w.shared.replay? (w.trace es) = some (w.play es).shared := by
  let P : World σ → List (Nat × Dealing) → Prop := fun w' ds =>
    w'.Held ∧ w.shared.replay? ds = some w'.shared
  have hrun : P (w.play es) ([] ++ w.trace es) := trace_induction
    (fun w' ds e ⟨hheld, hds⟩ => ⟨hheld.step e, hheld.replay_step hds e⟩) ⟨h, rfl⟩ es
  exact hrun.2

end World

/-! ## The record is in order -/

/-- What the call at place `i` has done when it is in a phase: its slot and its admission are given
back before its record is begun, once and each for itself. -/
inductive Done (i : Nat) : TagPhase → List Dealing → Prop
  | waiting : Done i .waiting [.asked]
  | writing (a : Attempt) (now : Nat) :
      Done i (.writing a) [.asked, .breaker (.granted a.admission now)]
  | pausing (a : Attempt) (wake now : Nat) :
      Done i (.pausing a wake) [.asked, .breaker (.granted a.admission now)]
  | stored (a : Admission) (id : String) (now : Nat) :
      Done i (.ended (.ok (.stored id)))
        [.asked, .breaker (.granted a now), .released, .breaker (.succeeded a)]
  | refused (now : Nat) :
      Done i (.keeping .breakerOpen) [.asked, .breaker (.refused now), .released]
  | failed (a : Admission) (reason : KeptReason) (now later : Nat) : reason ≠ .breakerOpen →
      Done i (.keeping reason)
        [.asked, .breaker (.granted a now), .released, .breaker (.failed a later)]
  | recorded (reason : KeptReason) (kept : Fallback.Kept) (ds : List Dealing) :
      Done i (.keeping reason) ds → Done i (.ended (conclude i reason kept)) (ds ++ [.recorded])

theorem Done.move {σ : Type} [FileStore σ] {w : World σ} {m : Moment} {i : Nat}
    {document : TagDocument} {p p' : TagPhase} {x : Encounter σ} {b : Breaker} {ds : List Dealing}
    (h : Done i p ds) (hm : World.Move w m i document p x p' b) : Done i p' (ds ++ dealt m p p') := by
  cases hm with
  | refused _ _ =>
    cases h
    exact .refused m.steady
  | admitted a b _ _ =>
    cases h
    exact .writing _ m.steady
  | stored a id =>
    cases h with
    | writing a now => exact .stored a.admission id now
  | retried a fault _ _ =>
    cases h with
    | writing a now => exact .pausing _ _ now
  | gaveUp a fault _ =>
    cases h with
    | writing a now => exact .failed a.admission _ now m.steady nofun
  | resumed a wake _ =>
    cases h with
    | pausing a wake now => exact .writing a now
  | expiredWriting a _ =>
    cases h with
    | writing a now => exact .failed a.admission _ now m.steady nofun
  | expiredPausing a wake _ =>
    cases h with
    | pausing a wake now => exact .failed a.admission _ now m.steady nofun
  | kept reason suffix kept after _ => exact .recorded reason kept ds h

namespace World

variable {σ : Type} {w : World σ}

/-- Every call has done what its phase says, and nobody else has done anything. An admission is
handed back with success when the store took the document. -/
structure Told (w : World σ) (trace : List (Nat × Dealing)) : Prop where
  call : ∀ i document p, w.client.calls[i]? = some ⟨document, p⟩ → Done i p (ofCall trace i)
  none : ∀ i, w.client.calls.length ≤ i → ofCall trace i = []
  answered : ∀ i, (∃ a, .breaker (.succeeded a) ∈ ofCall trace i) ↔
    ∃ id, .answer (.ok id) ∈ w.met i

theorem told_new (settings : TagSettings) (breaker : Breaker) (files : σ) :
    (new settings breaker files).Told [] :=
  ⟨fun i document p hc => by simp [new, Tagging.new] at hc, fun _ _ => rfl,
    fun i => by simp [ofCall, met, new]⟩

theorem Told.joined {trace : List (Nat × Dealing)} (h : w.Told trace) (document : TagDocument) :
    (w.joined document).Told (trace ++ [(w.client.calls.length, .asked)]) := by
  have hof : ∀ j, ofCall (trace ++ [(w.client.calls.length, Dealing.asked)]) j =
      ofCall trace j ++ if w.client.calls.length = j then [.asked] else [] := fun j => by
    rw [ofCall_append]
    exact congrArg (ofCall trace j ++ ·) (ofCall_map [Dealing.asked] w.client.calls.length j)
  refine ⟨fun j d p hc => ?_, fun j hj => ?_, fun j => ?_⟩
  · rw [hof]
    rw [joined_calls] at hc
    split at hc
    · rename_i hj
      cases hc
      rw [if_pos hj.symm, h.none j (Nat.le_of_eq hj.symm)]
      exact .waiting
    · rename_i hj
      rw [if_neg (Ne.symm hj), List.append_nil]
      exact h.call j d p hc
  · have hlen : (w.joined document).client.calls.length = w.client.calls.length + 1 := by
      simp [World.joined]
    rw [hof, h.none j (by omega), if_neg (by omega)]
    rfl
  · have hold : _ ↔ ∃ id, .answer (.ok id) ∈ (w.joined document).met j := h.answered j
    rw [hof]
    split <;> simpa using hold

variable [FileStore σ] {i : Nat} {document : TagDocument} {p p' : TagPhase} {x : Encounter σ}
  {b : Breaker} {m : Moment}

/-- A call hands its admission back with success in the move in which the store takes its document,
and in no other. -/
theorem Move.succeeded_iff (hm : Move w m i document p x p' b) :
    (∃ a, .breaker (.succeeded a) ∈ dealt m p p') ↔ ∃ id, x = .answer (.ok id) := by
  cases hm with
  | stored a id => exact ⟨fun _ => ⟨id, rfl⟩, fun _ => ⟨a.admission, by simp [dealt]⟩⟩
  | _ => simp [dealt]

theorem Told.moved {trace : List (Nat × Dealing)} (h : w.Told trace)
    (hc : w.client.calls[i]? = some ⟨document, p⟩) (hm : Move w m i document p x p' b) :
    (w.moved i x p p' b).Told (trace ++ (dealt m p p').map (Prod.mk i)) := by
  refine ⟨fun j d q hd => ?_, fun j hj => ?_, fun j => ?_⟩
  · rw [ofCall_append, ofCall_map]
    rcases Decidable.em (i = j) with rfl | hne
    · cases (moved_calls_self hc).symm.trans hd
      rw [if_pos rfl]
      exact (h.call i document p hc).move hm
    · rw [if_neg hne, List.append_nil]
      exact h.call j d q ((moved_calls_ne w (Ne.symm hne)).symm.trans hd)
  · have hlen : (w.moved i x p p' b).client.calls.length = w.client.calls.length := by
      simp [World.moved]
    have hi := (List.getElem?_eq_some_iff.mp hc).1
    rw [ofCall_append, ofCall_map, h.none j (by omega), if_neg (by omega)]
    rfl
  · rw [ofCall_append, ofCall_map, moved_met]
    rcases Decidable.em (i = j) with rfl | hne
    · simp only [if_true, List.mem_append, List.mem_singleton, exists_or]
      rw [h.answered i, hm.succeeded_iff]
      simp only [eq_comm]
    · simpa only [if_neg hne, List.append_nil] using h.answered j

theorem Told.step {trace : List (Nat × Dealing)} (h : w.Told trace) (e : Event σ × Moment) :
    (w.step e).Told (trace ++ w.dealings e) :=
  dealings_induction (P := Told) (fun _ document _ h => h.joined document)
    (fun _ _ _ _ _ _ _ _ _ h hc hm => h.moved hc hm) (fun _ _ _ h => ⟨h.call, h.none, h.answered⟩) h e

theorem Told.play {trace : List (Nat × Dealing)} (h : w.Told trace) (es : List (Event σ × Moment)) :
    (w.play es).Told (trace ++ w.trace es) :=
  trace_induction (P := Told) (fun _ _ e h => h.step e) h es

end World
end AfterAction.Tagging
