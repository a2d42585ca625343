import AfterAction.Tagging

/-!
# A tagging client in its world

`World` is a client with the files its records go to and the log of what its calls have met outside:
the breaker's refusal, writes and answers, the ceiling, the fallback. `step` lets one thing happen,
whatever it is and to whichever call; a run is any list of these. `Move` says once what a step can
do to a call, and `OneMove` that an event makes one such move or none.
-/

namespace AfterAction.Tagging

variable {σ : Type}

/-- A record that the fallback was given: the time and the random part of its name, and the files
before and after. -/
structure Keeping (σ : Type) where
  document : TagDocument
  now : Instant
  suffix : UInt32
  before : σ
  kept : Fallback.Kept
  after : σ

/-- What a call meets outside of the client. -/
inductive Encounter (σ : Type)
  /-- The breaker refuses the call. -/
  | refused
  /-- A write of this document begins. -/
  | put (document : TagDocument)
  /-- The store answers the write under way. -/
  | answer (answer : Except RemoteFault String)
  /-- The ceiling fires, during a write or between two. -/
  | ceiling
  | fallback (keeping : Keeping σ)

/-- What can happen. Calls are known by their places. -/
inductive Event (σ : Type)
  | start (run : Run)
  | notice (i : Nat)
  | answered (i : Nat) (answer : Except RemoteFault String)
  | resume (i : Nat)
  | expire (i : Nat)
  | keep (i : Nat) (suffix : UInt32)
  /-- Somebody else uses the file system. -/
  | elsewhere (change : σ → σ)

structure World (σ : Type) where
  client : Tagging
  files : σ
  /-- In order, with the places of the calls. -/
  log : List (Nat × Encounter σ)

namespace World

def new (settings : TagSettings) (breaker : Breaker) (files : σ) : World σ :=
  ⟨Tagging.new settings breaker, files, []⟩

/-- What one call has met. -/
def met (w : World σ) (i : Nat) : List (Encounter σ) :=
  (w.log.filter (·.1 = i)).map (·.2)

/-- What a call meets that has a slot and asks the breaker. -/
def entry (t : Tagging) (document : TagDocument) (m : Moment) : Encounter σ :=
  if (t.breaker.admit? m.steady).isSome then .put document else .refused

variable {w : World σ} {i : Nat}

theorem phase?_of_call {document : TagDocument} {p : TagPhase}
    (h : w.client.calls[i]? = some ⟨document, p⟩) : w.client.phase? i = some p := by
  rw [phase?, h]; rfl

theorem call_of_phase? {p : TagPhase} (h : w.client.phase? i = some p) :
    ∃ document, w.client.calls[i]? = some ⟨document, p⟩ := by
  obtain ⟨⟨document, p'⟩, hc, rfl⟩ := Option.map_eq_some_iff.mp h
  exact ⟨document, hc⟩

/-! ## What a step makes of a world -/

/-- The phases in which a call has a slot or waits for one. -/
def onSlot : TagPhase → Bool
  | .waiting | .writing _ | .pausing .. => true
  | .keeping _ | .ended _ => false

/-- A new call, which has asked for a slot. -/
def joined (w : World σ) (document : TagDocument) : World σ :=
  { w with client :=
    { w.client with
      slots := w.client.slots.ask w.client.calls.length
      calls := w.client.calls ++ [⟨document, .waiting⟩] } }

/-- The files after what a call met. -/
def filesAfter (files : σ) : Encounter σ → σ
  | .fallback k => k.after
  | _ => files

/-- The world after a move. The slot is given back with the last step on it. -/
def moved (w : World σ) (i : Nat) (x : Encounter σ) (p p' : TagPhase) (b : Breaker) : World σ where
  client :=
    { w.client with
      breaker := b
      slots := if onSlot p && !onSlot p' then w.client.slots.release i else w.client.slots
      calls := w.client.calls.modify i fun call => { call with phase := p' } }
  files := filesAfter w.files x
  log := w.log ++ [(i, x)]

theorem moved_calls (w : World σ) (i j : Nat) (x : Encounter σ) (p p' : TagPhase) (b : Breaker) :
    (w.moved i x p p' b).client.calls[j]? =
      if i = j then (w.client.calls[j]?).map fun call => { call with phase := p' }
      else w.client.calls[j]? := by
  simp only [moved, List.getElem?_modify]
  split <;> simp

theorem moved_calls_ne (w : World σ) {j : Nat} {x : Encounter σ} {p p' : TagPhase} {b : Breaker}
    (h : j ≠ i) : (w.moved i x p p' b).client.calls[j]? = w.client.calls[j]? := by
  rw [moved_calls, if_neg (Ne.symm h)]

theorem moved_calls_self {document : TagDocument} {x : Encounter σ} {p p' : TagPhase} {b : Breaker}
    (hc : w.client.calls[i]? = some ⟨document, p⟩) :
    (w.moved i x p p' b).client.calls[i]? = some ⟨document, p'⟩ := by
  rw [moved_calls, if_pos rfl, hc]
  rfl

theorem moved_met (w : World σ) (i j : Nat) (x : Encounter σ) (p p' : TagPhase) (b : Breaker) :
    (w.moved i x p p' b).met j = w.met j ++ if i = j then [x] else [] := by
  simp only [met, moved, List.filter_append, List.map_append]
  congr 1
  split <;> simp_all

theorem joined_calls (w : World σ) (document : TagDocument) (j : Nat) :
    (w.joined document).client.calls[j]? =
      if j = w.client.calls.length then some ⟨document, .waiting⟩ else w.client.calls[j]? := by
  rcases Nat.lt_trichotomy j w.client.calls.length with h | h | h
  · rw [if_neg (by omega)]
    exact List.getElem?_append_left h
  · subst h
    simp [joined]
  · have hl : (w.joined document).client.calls.length = w.client.calls.length + 1 := by
      simp [joined]
    rw [if_neg (by omega), List.getElem?_eq_none (by omega), List.getElem?_eq_none (by omega)]

/-! ## Steps -/

variable [FileStore σ]

/-- What an event makes a call meet. -/
def encounter? (w : World σ) (m : Moment) : Event σ → Option (Nat × Encounter σ)
  | .start run =>
    match TagDocument.ofRun w.client.settings.limits m.wall run with
    | .ok document =>
      let i := w.client.calls.length
      if (w.client.slots.ask i).holds i then some (i, entry w.client document m) else none
    | .error _ => none
  | .notice i =>
    match w.client.calls[i]? with
    | some ⟨document, .waiting⟩ =>
      if w.client.slots.holds i then some (i, entry w.client document m) else none
    | _ => none
  | .answered i answer =>
    match w.client.phase? i with
    | some (.writing _) => some (i, .answer answer)
    | _ => none
  | .resume i =>
    match w.client.calls[i]? with
    | some ⟨document, .pausing _ wake⟩ => if wake ≤ m.timer then some (i, .put document) else none
    | _ => none
  | .expire i =>
    match w.client.phase? i with
    | some (.writing a) | some (.pausing a _) =>
      if a.deadline ≤ m.timer then some (i, .ceiling) else none
    | _ => none
  | .keep i suffix =>
    match w.client.calls[i]? with
    | some ⟨document, .keeping _⟩ =>
      let (kept, after) := Fallback.keep w.client.settings.fallbackDirectory m.wall suffix document
        w.files
      some (i, .fallback ⟨document, m.wall, suffix, w.files, kept, after⟩)
    | _ => none
  | .elsewhere _ => none

/-- What an event does to the client and the files. -/
def happen (w : World σ) (m : Moment) : Event σ → Tagging × σ
  | .start run =>
    match w.client.start run m with
    | .ok (_, client) => (client, w.files)
    | .error _ => (w.client, w.files)
  | .notice i => (w.client.notice i m, w.files)
  | .answered i answer => (w.client.answered i answer m, w.files)
  | .resume i => (w.client.resume i m, w.files)
  | .expire i => (w.client.expire i m, w.files)
  | .keep i suffix => w.client.keep i suffix m w.files
  | .elsewhere change => (w.client, change w.files)

def step (w : World σ) (e : Event σ × Moment) : World σ :=
  ⟨(w.happen e.2 e.1).1, (w.happen e.2 e.1).2, w.log ++ (w.encounter? e.2 e.1).toList⟩

def play (w : World σ) (es : List (Event σ × Moment)) : World σ := es.foldl step w

section
variable {document : TagDocument} {p : TagPhase} {a : Attempt}

theorem encounter?_notice (hc : w.client.calls[i]? = some ⟨document, .waiting⟩)
    (hs : w.client.slots.holds i = true) (m : Moment) :
    w.encounter? m (.notice i) = some (i, entry w.client document m) := by
  simp only [encounter?, hc, hs, if_true]

theorem encounter?_answered (hc : w.client.calls[i]? = some ⟨document, .writing a⟩)
    (answer : Except RemoteFault String) (m : Moment) :
    w.encounter? m (.answered i answer) = some (i, .answer answer) := by
  simp only [encounter?, phase?_of_call hc]

/-- The ceiling stops a call on its attempts. -/
theorem encounter?_expire {m : Moment} (hc : w.client.calls[i]? = some ⟨document, p⟩)
    (hp : p = .writing a ∨ ∃ wake, p = .pausing a wake) (hdue : a.deadline ≤ m.timer) :
    w.encounter? m (.expire i) = some (i, .ceiling) := by
  rcases hp with rfl | ⟨wake, rfl⟩
  · simp only [encounter?, phase?_of_call hc, if_pos hdue]
  · simp only [encounter?, phase?_of_call hc, if_pos hdue]

theorem encounter?_keep {reason : KeptReason}
    (hc : w.client.calls[i]? = some ⟨document, .keeping reason⟩) (suffix : UInt32) (m : Moment) :
    ∃ k, w.encounter? m (.keep i suffix) = some (i, .fallback k) := by
  simp only [encounter?, hc]
  exact ⟨_, rfl⟩

end

/-! ## What a step can do -/

/-- How one call moves on: its phase, what it meets, its next phase, and the breaker afterwards. -/
inductive Move (w : World σ) (m : Moment) (i : Nat) (document : TagDocument) :
    TagPhase → Encounter σ → TagPhase → Breaker → Prop
  | refused : w.client.slots.holds i = true → w.client.breaker.admit? m.steady = none →
      Move w m i document .waiting .refused (.keeping .breakerOpen) w.client.breaker
  | admitted (a : Admission) (b : Breaker) : w.client.slots.holds i = true →
      w.client.breaker.admit? m.steady = some (a, b) →
      Move w m i document .waiting (.put document)
        (.writing ⟨a, 0, firstPause, m.timer + w.client.settings.ceiling⟩) b
  | stored (a : Attempt) (id : String) :
      Move w m i document (.writing a) (.answer (.ok id)) (.ended (.ok (.stored id)))
        (w.client.breaker.succeeded a.admission)
  | retried (a : Attempt) (fault : RemoteFault) : fault.isRetryable = true →
      a.retries < w.client.settings.maxRetries →
      Move w m i document (.writing a) (.answer (.error fault))
        (.pausing { a with retries := a.retries + 1, pause := min (2 * a.pause) longestPause }
          (m.timer + a.pause)) w.client.breaker
  | gaveUp (a : Attempt) (fault : RemoteFault) :
      (fault.isRetryable = true → w.client.settings.maxRetries ≤ a.retries) →
      Move w m i document (.writing a) (.answer (.error fault))
        (.keeping (.storeFault fault.message)) (w.client.breaker.failed a.admission m.steady)
  | resumed (a : Attempt) (wake : Nat) : wake ≤ m.timer →
      Move w m i document (.pausing a wake) (.put document) (.writing a) w.client.breaker
  | expiredWriting (a : Attempt) : a.deadline ≤ m.timer →
      Move w m i document (.writing a) .ceiling (.keeping .timeout)
        (w.client.breaker.failed a.admission m.steady)
  | expiredPausing (a : Attempt) (wake : Nat) : a.deadline ≤ m.timer →
      Move w m i document (.pausing a wake) .ceiling (.keeping .timeout)
        (w.client.breaker.failed a.admission m.steady)
  | kept (reason : KeptReason) (suffix : UInt32) (kept : Fallback.Kept) (after : σ) :
      Fallback.keep w.client.settings.fallbackDirectory m.wall suffix document w.files =
        (kept, after) →
      Move w m i document (.keeping reason)
        (.fallback ⟨document, m.wall, suffix, w.files, kept, after⟩)
        (.ended (conclude i reason kept)) w.client.breaker

/-- Nothing happens, or one call moves on. -/
def OneMove (w : World σ) (e : Event σ × Moment) : Prop :=
  (w.step e = w ∧ w.encounter? e.2 e.1 = none) ∨
  ∃ i document p x p' b, w.client.calls[i]? = some ⟨document, p⟩ ∧
    Move w e.2 i document p x p' b ∧ w.step e = w.moved i x p p' b ∧
    w.encounter? e.2 e.1 = some (i, x)

/-- What the call meets in an event is a move of its own. -/
theorem OneMove.of_encounter {e : Event σ × Moment} {document : TagDocument} {p : TagPhase}
    {x : Encounter σ} (h : w.OneMove e) (hx : w.encounter? e.2 e.1 = some (i, x))
    (hc : w.client.calls[i]? = some ⟨document, p⟩) :
    ∃ p' b, Move w e.2 i document p x p' b ∧ w.step e = w.moved i x p p' b := by
  rcases h with ⟨-, hnone⟩ | ⟨j, d, q, y, p', b, hj, hmove, hs, hsome⟩
  · cases hx.symm.trans hnone
  · cases hx.symm.trans hsome
    cases hc.symm.trans hj
    exact ⟨p', b, hmove, hs⟩

attribute [local simp] step happen encounter?

theorem oneMove_notice (w : World σ) (i : Nat) (m : Moment) : w.OneMove (.notice i, m) := by
  cases hc : w.client.calls[i]? with
  | none => exact .inl (by simp [notice, phase?, hc])
  | some call =>
    obtain ⟨document, p⟩ := call
    have hp := phase?_of_call hc
    cases p with
    | waiting =>
      cases hs : w.client.slots.holds i with
      | false => exact .inl (by simp [notice, hp, hc, hs])
      | true =>
        cases hb : w.client.breaker.admit? m.steady with
        | none =>
          refine .inr ⟨i, document, _, _, _, _, hc, .refused hs hb, ?_, ?_⟩
          · simp [notice, hp, hc, hs, enter, hb, entry, moved, onSlot,
              setPhase, release, filesAfter]
          · simp [hc, hs, entry, hb]
        | some admitted =>
          obtain ⟨a, b⟩ := admitted
          refine .inr ⟨i, document, _, _, _, _, hc, .admitted _ _ hs hb, ?_, ?_⟩
          · simp [notice, hp, hc, hs, enter, hb, entry, moved, onSlot, setPhase, filesAfter]
          · simp [hc, hs, entry, hb]
    | _ => exact .inl (by simp [notice, hp, hc])

theorem oneMove_answered (w : World σ) (i : Nat) (answer : Except RemoteFault String) (m : Moment) :
    w.OneMove (.answered i answer, m) := by
  cases hp : w.client.phase? i with
  | none => exact .inl (by simp [answered, hp])
  | some p =>
    obtain ⟨document, hc⟩ := call_of_phase? hp
    cases p with
    | writing a =>
      cases answer with
      | ok id =>
        refine .inr ⟨i, document, _, _, _, _, hc, .stored a id, ?_, ?_⟩
        · simp [answered, hp, moved, onSlot, setPhase, release, filesAfter]
        · simp [hp]
      | error fault =>
        by_cases hr : (fault.isRetryable && a.retries < w.client.settings.maxRetries) = true
        · obtain ⟨hr₁, hr₂⟩ := Bool.and_eq_true_iff.mp hr
          have hlt := of_decide_eq_true hr₂
          refine .inr ⟨i, document, _, _, _, _, hc, .retried a fault hr₁ hlt, ?_, ?_⟩
          · simp only [step, happen, answered, hp, hr, if_true]
            simp [hp, moved, onSlot, setPhase, filesAfter]
          · simp [hp]
        · refine .inr ⟨i, document, _, _, _, _, hc, .gaveUp a fault (fun h => ?_), ?_, ?_⟩
          · simpa [h] using hr
          · simp only [step, happen, answered, hp, hr]
            simp [hp, moved, onSlot, setPhase, release, divert, filesAfter]
          · simp [hp]
    | _ => exact .inl (by simp [answered, hp])

theorem oneMove_resume (w : World σ) (i : Nat) (m : Moment) : w.OneMove (.resume i, m) := by
  cases hc : w.client.calls[i]? with
  | none => exact .inl (by simp [resume, phase?, hc])
  | some call =>
    obtain ⟨document, p⟩ := call
    have hp := phase?_of_call hc
    cases p with
    | pausing a wake =>
      by_cases hw : wake ≤ m.timer
      · refine .inr ⟨i, document, _, _, _, _, hc, .resumed a wake hw, ?_, ?_⟩
        · simp [resume, hp, hc, hw, moved, onSlot, setPhase, filesAfter]
        · simp [hc, hw]
      · exact .inl (by simp [resume, hp, hc, hw])
    | _ => exact .inl (by simp [resume, hp, hc])

theorem oneMove_expire (w : World σ) (i : Nat) (m : Moment) : w.OneMove (.expire i, m) := by
  cases hp : w.client.phase? i with
  | none => exact .inl (by simp [expire, hp])
  | some p =>
    obtain ⟨document, hc⟩ := call_of_phase? hp
    cases p with
    | writing a =>
      by_cases hd : a.deadline ≤ m.timer
      · refine .inr ⟨i, document, _, _, _, _, hc, .expiredWriting a hd, ?_, ?_⟩
        · simp [expire, hp, hd, moved, onSlot, setPhase, release, divert, filesAfter]
        · simp [hp, hd]
      · exact .inl (by simp [expire, hp, hd])
    | pausing a wake =>
      by_cases hd : a.deadline ≤ m.timer
      · refine .inr ⟨i, document, _, _, _, _, hc, .expiredPausing a wake hd, ?_, ?_⟩
        · simp [expire, hp, hd, moved, onSlot, setPhase, release, divert, filesAfter]
        · simp [hp, hd]
      · exact .inl (by simp [expire, hp, hd])
    | _ => exact .inl (by simp [expire, hp])

theorem oneMove_keep (w : World σ) (i : Nat) (suffix : UInt32) (m : Moment) :
    w.OneMove (.keep i suffix, m) := by
  cases hc : w.client.calls[i]? with
  | none => exact .inl (by simp [keep, hc])
  | some call =>
    obtain ⟨document, p⟩ := call
    cases p with
    | keeping reason =>
      obtain ⟨⟨kept, after⟩, hk⟩ : ∃ r, Fallback.keep w.client.settings.fallbackDirectory m.wall
        suffix document w.files = r := ⟨_, rfl⟩
      refine .inr ⟨i, document, _, _, _, _, hc, .kept reason suffix kept after hk, ?_, ?_⟩
      · simp [keep, hc, hk, moved, onSlot, setPhase, filesAfter]
      · simp [hc, hk]
    | _ => exact .inl (by simp [keep, hc])

/-- A call begins only with a good run id, and from then on as one that notices its slot. -/
theorem step_start (w : World σ) (run : Run) (m : Moment) :
    w.step (.start run, m) =
      match TagDocument.ofRun w.client.settings.limits m.wall run with
      | .ok document => (w.joined document).step (.notice w.client.calls.length, m)
      | .error _ => w := by
  simp only [step, happen, encounter?, Tagging.start]
  cases hd : TagDocument.ofRun w.client.settings.limits m.wall run with
  | error fault => simp [bind, Except.bind]
  | ok document =>
    have hc : (w.joined document).client.calls[w.client.calls.length]? =
        some ⟨document, .waiting⟩ := by simp [joined]
    simp only [bind, Except.bind, pure, Except.pure, notice, phase?, hc, Option.map_some]
    rfl

/-- What new calls, moves and others' use of the files keep, a step keeps. -/
theorem step_induction {P : World σ → Prop}
    (hjoin : ∀ w m run document, P w →
      TagDocument.ofRun w.client.settings.limits m run = .ok document → P (w.joined document))
    (hmove : ∀ w m i document p x p' b, P w → w.client.calls[i]? = some ⟨document, p⟩ →
      Move w m i document p x p' b → P (w.moved i x p p' b))
    (helse : ∀ w (change : σ → σ), P w → P { w with files := change w.files })
    {w : World σ} (h : P w) (e : Event σ × Moment) : P (w.step e) := by
  have hone : ∀ {w : World σ} {e}, P w → w.OneMove e → P (w.step e) := by
    rintro w e h (⟨hs, _⟩ | ⟨i, document, p, x, p', b, hc, hm, hs, _⟩)
    · rwa [hs]
    · rw [hs]
      exact hmove w e.2 i document p x p' b h hc hm
  obtain ⟨e, m⟩ := e
  cases e with
  | start run =>
    rw [step_start]
    split
    · rename_i document hd
      exact hone (hjoin w m.wall run document h hd) (oneMove_notice _ _ _)
    · exact h
  | notice i => exact hone h (oneMove_notice w i m)
  | answered i answer => exact hone h (oneMove_answered w i answer m)
  | resume i => exact hone h (oneMove_resume w i m)
  | expire i => exact hone h (oneMove_expire w i m)
  | keep i suffix => exact hone h (oneMove_keep w i suffix m)
  | elsewhere change =>
    have hs : w.step (.elsewhere change, m) = { w with files := change w.files } := by
      simp
    rw [hs]
    exact helse w change h

theorem play_nil (w : World σ) : w.play [] = w := rfl

theorem play_append (w : World σ) (es es' : List (Event σ × Moment)) :
    w.play (es ++ es') = (w.play es).play es' := List.foldl_append

/-- What every step keeps, a run keeps. -/
theorem play_induction {P : World σ → Prop} (hstep : ∀ w e, P w → P (w.step e)) (h : P w)
    (es : List (Event σ × Moment)) : P (w.play es) := by
  induction es generalizing w with
  | nil => exact h
  | cons e es ih => exact ih (hstep w e h)

end World
end AfterAction.Tagging
