import AfterAction.Proofs.Tagging.Dealings
import AfterAction.Proofs.Tagging.Ending

/-!
# A client comes to rest and recovers

A call that is refused, answered for good or stopped by its ceiling gives its slot to the next in line
and its admission to the breaker in that very step, and the client can bring all its calls to their
ends. When they have ended, every slot is idle and no trial is in flight, whatever the calls went
through: `Lends` counts the admissions of the calls that still work on their attempts. From such a
rest a call that the breaker has cooled down for gets its slot and its admission at once and begins
to write. `Pursued` follows it from there: as long as it works, the breaker stays as its admission
left it, so its success closes the breaker.
-/

namespace AfterAction.Tagging

variable {σ : Type} {m : Moment} {i : Nat} {document : TagDocument} {p p' : TagPhase}
  {x : Encounter σ} {b : Breaker}

/-- All that a call has done that has ended, if the store took its document and if not. -/
inductive Finished (stored : Prop) : List Dealing → Prop
  | stored (a : Admission) (now : Nat) : stored →
      Finished stored [.asked, .breaker (.granted a now), .released, .breaker (.succeeded a)]
  | failed (a : Admission) (now later : Nat) : ¬ stored →
      Finished stored
        [.asked, .breaker (.granted a now), .released, .breaker (.failed a later), .recorded]
  | refused (now : Nat) : ¬ stored →
      Finished stored [.asked, .breaker (.refused now), .released, .recorded]

theorem Done.finished {stored : Prop} {result : Except TagFault TagOutcome} {ds : List Dealing}
    (h : Done i (.ended result) ds) (hs : (∃ a, .breaker (.succeeded a) ∈ ds) ↔ stored) :
    Finished stored ds := by
  cases h with
  | stored a id now => exact .stored a now (hs.mp ⟨a, by simp⟩)
  | recorded reason kept ds hkeeping =>
    cases hkeeping with
    | refused now => exact .refused now fun hstored => by simpa using hs.mpr hstored
    | failed a reason now later _ =>
      exact .failed a now later fun hstored => by simpa using hs.mpr hstored

namespace World

variable {w : World σ}

/-- The admissions of calls that work on their attempts. -/
def out (w : World σ) : List Admission := w.client.calls.filterMap fun call => admission? call.phase

theorem out_joined (w : World σ) (document : TagDocument) : (w.joined document).out = w.out := by
  simp [out, joined, List.filterMap_append, admission?]

theorem Quiet.out_eq (h : w.Quiet) : w.out = [] := by
  refine List.filterMap_eq_nil_iff.mpr fun call hcall => ?_
  obtain ⟨i, hi⟩ := List.mem_iff_getElem?.mp hcall
  obtain ⟨result, hp⟩ := h i call.document call.phase hi
  rw [hp]
  rfl

/-- At rest nobody holds a slot, and nobody waits for one. -/
theorem Quiet.slots_eq (h : w.Quiet) (hh : w.Held) :
    w.client.slots = ⟨w.client.slots.total, w.client.slots.total, [], []⟩ := by
  have hholders : w.client.slots.holders = [] := by
    refine List.eq_nil_iff_forall_not_mem.mpr fun i hi => ?_
    obtain ⟨d, p, hc, hp⟩ := hh.holder i hi
    obtain ⟨result, rfl⟩ := h i d p hc
    cases hp
  have hwaiting : w.client.slots.waiting = [] := by
    refine List.eq_nil_iff_forall_not_mem.mpr fun i hi => ?_
    obtain ⟨d, hc⟩ := hh.line i hi
    obtain ⟨result, hp⟩ := h i d _ hc
    cases hp
  have hidle : w.client.slots.idle = w.client.slots.total := by
    simpa [hholders] using hh.balanced.held
  cases hs : w.client.slots with
  | mk total idle holders waiting =>
    rw [hs] at hholders hwaiting hidle
    cases hholders
    cases hwaiting
    cases hidle
    rfl

/-! ## A call from rest -/

/-- From rest a call gets a slot at once. -/
theorem Quiet.holds_new (h : w.Quiet) (hh : w.Held) :
    (w.client.slots.ask w.client.calls.length).holds w.client.calls.length = true := by
  have hpos := hh.total_pos
  rw [h.slots_eq hh]
  simp [Slots.ask, Slots.holds, Nat.ne_of_gt hpos]

/-- The call at place `n` was admitted to a breaker that is `b` since. As long as it works, and
no other call can get an admission, it is the only one out and the breaker stays as it is. -/
structure Pursued (n : Nat) (a : Admission) (b : Breaker) (w : World σ) : Prop where
  begun : n < w.client.calls.length
  noticed : ∀ document, w.client.calls[n]? ≠ some ⟨document, .waiting⟩
  alone : w.client.calls.length = n + 1 ∨ (∀ now, b.admit? now = none) →
    ∀ document p a', w.client.calls[n]? = some ⟨document, p⟩ → admission? p = some a' →
      a' = a ∧ w.client.breaker = b ∧
      ∀ j d q, j ≠ n → w.client.calls[j]? = some ⟨d, q⟩ →
        admission? q = none ∧ (q = .waiting → ∀ now, b.admit? now = none)

variable {n : Nat} {a : Admission} {b' : Breaker}

theorem Pursued.joined (h : w.Pursued n a b) (document : TagDocument) :
    (w.joined document).Pursued n a b := by
  have hlen : (w.joined document).client.calls.length = w.client.calls.length + 1 := by
    simp [World.joined]
  have hold : (w.joined document).client.calls[n]? = w.client.calls[n]? := by
    rw [joined_calls, if_neg (Nat.ne_of_lt h.begun)]
  have hbegun := h.begun
  refine ⟨by omega, fun d => hold ▸ h.noticed d, fun hlone d p a' hc ha => ?_⟩
  have hrefuses : ∀ now, b.admit? now = none := hlone.resolve_left (by omega)
  obtain ⟨hadm, hb, hothers⟩ := h.alone (.inr hrefuses) d p a' (hold ▸ hc) ha
  refine ⟨hadm, hb, fun j d' q hj hq => ?_⟩
  rw [joined_calls] at hq
  split at hq
  · cases hq
    exact ⟨rfl, fun _ => hrefuses⟩
  · exact hothers j d' q hj hq

/-- A call that begins at rest is pursued from the start. -/
theorem Quiet.pursued {a : Admission} (h : w.Quiet) (attempt : Attempt) (ha : attempt.admission = a) :
    ((w.joined document).moved w.client.calls.length x .waiting (.writing attempt) b).Pursued
      w.client.calls.length a b := by
  have hcall : (w.joined document).client.calls[w.client.calls.length]? =
      some ⟨document, .waiting⟩ := by rw [joined_calls, if_pos rfl]
  have hself : ((w.joined document).moved w.client.calls.length x .waiting (.writing attempt)
      b).client.calls[w.client.calls.length]? = some ⟨document, .writing attempt⟩ :=
    moved_calls_self hcall
  refine ⟨by simp [moved, World.joined], fun d hd => ?_, fun _ d p a' hc ha' => ?_⟩
  · cases hself.symm.trans hd
  · cases hself.symm.trans hc
    cases ha'
    refine ⟨ha, rfl, fun j d q hj hq => ?_⟩
    rw [moved_calls_ne _ hj, joined_calls, if_neg hj] at hq
    obtain ⟨result, rfl⟩ := h j d q hq
    exact ⟨rfl, fun he => by cases he⟩

variable [FileStore σ]

/-- The call itself goes on, and the others keep their places. -/
theorem Pursued.moved_own (h : w.Pursued n a b) (hc : w.client.calls[n]? = some ⟨document, p⟩)
    (hm : Move w m n document p x p' b') : (w.moved n x p p' b').Pursued n a b := by
  have hself : (w.moved n x p p' b').client.calls[n]? = some ⟨document, p'⟩ := moved_calls_self hc
  have hlen : (w.moved n x p p' b').client.calls.length = w.client.calls.length := by simp [moved]
  refine ⟨hlen ▸ h.begun, fun d hd => ?_, fun hlone d q a' hq ha => ?_⟩
  · cases hself.symm.trans hd
    exact (hm.onSlot_of_after rfl).2 rfl
  · cases hself.symm.trans hq
    have hkeeps : p ≠ .waiting → admission? p = some a' ∧ b' = w.client.breaker := by
      intro hp
      cases hm with
      | admitted => exact absurd rfl hp
      | retried | resumed => exact ⟨ha, rfl⟩
      | refused | stored | gaveUp | expiredWriting | expiredPausing | kept => cases ha
    obtain ⟨hold, rfl⟩ := hkeeps fun hp => h.noticed document (hp ▸ hc)
    obtain ⟨hadm, hb, hothers⟩ := h.alone (hlen ▸ hlone) document p a' hc hold
    refine ⟨hadm, hb, fun j d q hj hq => hothers j d q hj ?_⟩
    exact (moved_calls_ne w hj).symm.trans hq

/-- Another call goes on, and gets nothing from the breaker. -/
theorem Pursued.moved_other (h : w.Pursued n a b) (hi : i ≠ n)
    (hc : w.client.calls[i]? = some ⟨document, p⟩) (hm : Move w m i document p x p' b') :
    (w.moved i x p p' b').Pursued n a b := by
  have hown : (w.moved i x p p' b').client.calls[n]? = w.client.calls[n]? :=
    moved_calls_ne w (Ne.symm hi)
  have hself : (w.moved i x p p' b').client.calls[i]? = some ⟨document, p'⟩ := moved_calls_self hc
  have hlen : (w.moved i x p p' b').client.calls.length = w.client.calls.length := by simp [moved]
  refine ⟨hlen ▸ h.begun, fun d => hown ▸ h.noticed d, fun hlone d q a' hq ha => ?_⟩
  obtain ⟨hadm, hb, hothers⟩ := h.alone (hlen ▸ hlone) d q a' (hown ▸ hq) ha
  have hfree := hothers i document p hi hc
  have hmove : b' = w.client.breaker ∧ admission? p' = none ∧ p' ≠ .waiting := by
    cases hm with
    | refused | kept => exact ⟨rfl, rfl, by simp⟩
    | admitted a' b' _ hgrant =>
      rw [hb, hfree.2 rfl] at hgrant
      cases hgrant
    | stored | retried | gaveUp | resumed | expiredWriting | expiredPausing => cases hfree.1
  obtain ⟨rfl, hnone, hnot⟩ := hmove
  refine ⟨hadm, hb, fun j d' q' hj hq' => ?_⟩
  rcases Decidable.em (j = i) with rfl | hne
  · cases hself.symm.trans hq'
    exact ⟨hnone, fun he => absurd he hnot⟩
  · exact hothers j d' q' hj ((moved_calls_ne w hne).symm.trans hq')

theorem Pursued.step (h : w.Pursued n a b) (e : Event σ × Moment) : (w.step e).Pursued n a b := by
  refine step_induction (P := Pursued n a b) (fun _ _ _ document h _ => h.joined document)
    (fun w _ i document p x p' b' h hc hm => ?_) (fun _ _ h => ⟨h.begun, h.noticed, h.alone⟩) h e
  by_cases hi : i = n
  · subst hi
    exact h.moved_own hc hm
  · exact h.moved_other hi hc hm

theorem Pursued.play (h : w.Pursued n a b) (es : List (Event σ × Moment)) :
    (w.play es).Pursued n a b :=
  play_induction (fun _ e h => h.step e) h es

/-- From rest a call that is admitted begins to write. -/
theorem Quiet.step_start {run : Run} {a : Admission} (h : w.Quiet) (hh : w.Held)
    (hd : TagDocument.ofRun w.client.settings.limits m.wall run = .ok document)
    (hgrant : w.client.breaker.admit? m.steady = some (a, b)) :
    w.step (.start run, m) =
      (w.joined document).moved w.client.calls.length (.put document) .waiting
        (.writing ⟨a, 0, firstPause, m.timer + w.client.settings.ceiling⟩) b := by
  have hcall : (w.joined document).client.calls[w.client.calls.length]? =
      some ⟨document, .waiting⟩ := by rw [joined_calls, if_pos rfl]
  have hslot : (w.joined document).client.slots.holds w.client.calls.length = true := h.holds_new hh
  have hgrant' : (w.joined document).client.breaker.admit? m.steady = some (a, b) := hgrant
  have henc : (w.joined document).encounter? m (.notice w.client.calls.length) =
      some (w.client.calls.length, .put document) := by
    rw [encounter?_notice hcall hslot]
    simp [entry, hgrant']
  rw [World.step_start, hd]
  obtain ⟨p', b', hmove, hs⟩ :=
    (oneMove_notice (w.joined document) w.client.calls.length m).of_encounter henc hcall
  cases hmove with
  | admitted a' b' _ hb =>
    cases hgrant'.symm.trans hb
    exact hs

/-! ## Slots and admissions that are out -/

omit [FileStore σ] in
theorem total_moved (w : World σ) (i : Nat) (x : Encounter σ) (p p' : TagPhase) (b : Breaker) :
    (w.moved i x p p' b).client.slots.total = w.client.slots.total := by
  simp only [moved]
  split
  · exact Slots.total_release _ _
  · rfl

theorem step_total (w : World σ) (e : Event σ × Moment) :
    (w.step e).client.slots.total = w.client.slots.total := by
  refine step_induction (P := fun w' => w'.client.slots.total = w.client.slots.total)
    (fun _ _ _ _ h _ => (Slots.total_ask _ _).trans h)
    (fun w' _ i _ p x p' b h _ _ => (total_moved w' i x p p' b).trans h) (fun _ _ h => h) rfl e

theorem play_total (w : World σ) (es : List (Event σ × Moment)) :
    (w.play es).client.slots.total = w.client.slots.total :=
  play_induction (P := fun w' => w'.client.slots.total = w.client.slots.total)
    (fun w' e h => (step_total w' e).trans h) rfl es

/-- In a move a call has its turn at the breaker, or leaves it as it is. -/
theorem Move.turn (hm : Move w m i document p x p' b) :
    w.client.breaker.replay? ((dealt m p p').filterMap Dealing.breaker?) = some b ∧
    Breaker.Turn ((dealt m p p').filterMap Dealing.breaker?) (admission? p) (admission? p') := by
  cases hm with
  | refused _ hb =>
    exact ⟨(Breaker.replay?_singleton _ _).trans (Breaker.deal?_refused hb), .refused _⟩
  | admitted a b _ hb =>
    exact ⟨(Breaker.replay?_singleton _ _).trans (Breaker.deal?_granted hb), .granted _ _⟩
  | stored a id => exact ⟨Breaker.replay?_singleton _ _, .succeeded _⟩
  | gaveUp | expiredWriting | expiredPausing => exact ⟨Breaker.replay?_singleton _ _, .failed _ _⟩
  | retried | resumed | kept => exact ⟨rfl, .idle _⟩

theorem lends_moved {threshold : Nat} (h : Breaker.Lends threshold w.client.breaker w.out)
    (hc : w.client.calls[i]? = some ⟨document, p⟩) (hm : Move w m i document p x p' b) :
    Breaker.Lends threshold b (w.moved i x p p' b).out :=
  Breaker.Lends.modify h hc hm.turn.1 hm.turn.2

theorem lends_step {threshold : Nat} (h : Breaker.Lends threshold w.client.breaker w.out)
    (e : Event σ × Moment) :
    Breaker.Lends threshold (w.step e).client.breaker (w.step e).out := by
  refine step_induction (P := fun w => Breaker.Lends threshold w.client.breaker w.out)
    (fun w _ _ d h _ => ?_) (fun _ _ _ _ _ _ _ _ h hc hm => lends_moved h hc hm)
    (fun _ _ h => h) h e
  rw [out_joined]
  exact h

theorem lends_play {threshold : Nat} (h : Breaker.Lends threshold w.client.breaker w.out)
    (es : List (Event σ × Moment)) :
    Breaker.Lends threshold (w.play es).client.breaker (w.play es).out :=
  play_induction (P := fun w => Breaker.Lends threshold w.client.breaker w.out)
    (fun _ e h => lends_step h e) h es

/-! ## Handing back -/

/-- The store takes the document of a call that writes. -/
theorem step_answered_ok {attempt : Attempt}
    (hc : w.client.calls[i]? = some ⟨document, .writing attempt⟩) (id : String) (m : Moment) :
    w.step (.answered i (.ok id), m) = w.moved i (.answer (.ok id)) (.writing attempt)
      (.ended (.ok (.stored id))) (w.client.breaker.succeeded attempt.admission) := by
  obtain ⟨p', b, hmove, hs⟩ :=
    (oneMove_answered w i (.ok id) m).of_encounter (encounter?_answered hc _ m) hc
  cases hmove with
  | stored attempt id => exact hs

/-- In a step to `w'` the call at place `i` has gone on to another phase and given its slot to the
next in line, and the breaker is `b`. -/
structure Leaves (w : World σ) (i : Nat) (p' : TagPhase) (b : Breaker) (w' : World σ) : Prop where
  phase : w'.client.phase? i = some p'
  held : i ∈ w.client.slots.holders
  slots : w'.client.slots = w.client.slots.release i
  gone : i ∉ w'.client.slots.holders
  breaker : w'.client.breaker = b

/-- How the call at place `i` hands back what it was lent. -/
structure HandsBack (w : World σ) (i : Nat) : Prop where
  refused : ∀ m, w.client.phase? i = some .waiting → w.client.slots.holds i = true →
    w.client.breaker.admit? m.steady = none →
    w.Leaves i (.keeping .breakerOpen) w.client.breaker (w.step (.notice i, m))
  stored : ∀ attempt id m, w.client.phase? i = some (.writing attempt) →
    w.Leaves i (.ended (.ok (.stored id))) (w.client.breaker.succeeded attempt.admission)
      (w.step (.answered i (.ok id), m))
  /-- A fault that is not retried, or not any more. -/
  failed : ∀ attempt fault m, w.client.phase? i = some (.writing attempt) →
    (fault.isRetryable = true → w.client.settings.maxRetries ≤ attempt.retries) →
    w.Leaves i (.keeping (.storeFault fault.message))
      (w.client.breaker.failed attempt.admission m.steady) (w.step (.answered i (.error fault), m))
  expired : ∀ attempt m, (w.client.phase? i = some (.writing attempt) ∨
      ∃ wake, w.client.phase? i = some (.pausing attempt wake)) → attempt.deadline ≤ m.timer →
    w.Leaves i (.keeping .timeout) (w.client.breaker.failed attempt.admission m.steady)
      (w.step (.expire i, m))
  /-- The record is begun without a slot, and ends the call. -/
  recorded : ∀ reason suffix m, w.client.phase? i = some (.keeping reason) →
    i ∉ w.client.slots.holders ∧ (w.step (.keep i suffix, m)).shared = w.shared ∧
      ∃ result, (w.step (.keep i suffix, m)).client.phase? i = some (.ended result)

theorem Move.leaves (hm : Move w m i document p x p' b) (h : w.Held)
    (hc : w.client.calls[i]? = some ⟨document, p⟩) (hp : onSlot p = true)
    (hp' : onSlot p' = false) : w.Leaves i p' b (w.moved i x p p' b) where
  phase := phase?_of_call (moved_calls_self hc)
  held := hm.holds h hc hp
  slots := by simp [moved, hp, hp']
  gone hi := by
    obtain ⟨d, q, hq, hslot⟩ := (h.moved hc hm).holder i hi
    cases (moved_calls_self hc).symm.trans hq
    simp [hp'] at hslot
  breaker := rfl

theorem Held.handsBack (h : w.Held) (i : Nat) : w.HandsBack i where
  refused m hp hs hb := by
    obtain ⟨document, hc⟩ := call_of_phase? hp
    have henc : w.encounter? m (.notice i) = some (i, .refused) := by
      rw [encounter?_notice hc hs]
      simp [entry, hb]
    obtain ⟨p', b, hmove, hstep⟩ := (oneMove_notice w i m).of_encounter henc hc
    rw [hstep]
    cases hmove with
    | refused hs hb => exact Move.leaves (.refused hs hb) h hc rfl rfl
  stored attempt id m hp := by
    obtain ⟨document, hc⟩ := call_of_phase? hp
    rw [step_answered_ok hc]
    exact Move.leaves (m := m) (.stored attempt id) h hc rfl rfl
  failed attempt fault m hp hlast := by
    obtain ⟨document, hc⟩ := call_of_phase? hp
    obtain ⟨p', b, hmove, hstep⟩ :=
      (oneMove_answered w i (.error fault) m).of_encounter (encounter?_answered hc _ m) hc
    rw [hstep]
    cases hmove with
    | retried _ _ hretry hlt => exact absurd (hlast hretry) (Nat.not_le_of_lt hlt)
    | gaveUp => exact Move.leaves (.gaveUp attempt fault hlast) h hc rfl rfl
  expired attempt m hp hdue := by
    obtain ⟨p, hp, hworks⟩ : ∃ p, w.client.phase? i = some p ∧
        (p = .writing attempt ∨ ∃ wake, p = .pausing attempt wake) := by
      rcases hp with hp | ⟨wake, hp⟩
      · exact ⟨_, hp, .inl rfl⟩
      · exact ⟨_, hp, .inr ⟨wake, rfl⟩⟩
    obtain ⟨document, hc⟩ := call_of_phase? hp
    obtain ⟨p', b, hmove, hstep⟩ :=
      (oneMove_expire w i m).of_encounter (encounter?_expire hc hworks hdue) hc
    rw [hstep]
    rcases hworks with rfl | ⟨wake, rfl⟩
    · cases hmove with
      | expiredWriting => exact Move.leaves (.expiredWriting attempt hdue) h hc rfl rfl
    · cases hmove with
      | expiredPausing => exact Move.leaves (.expiredPausing attempt wake hdue) h hc rfl rfl
  recorded reason suffix m hp := by
    obtain ⟨document, hc⟩ := call_of_phase? hp
    obtain ⟨k, henc⟩ := encounter?_keep hc suffix m
    obtain ⟨p', b, hmove, hstep⟩ := (oneMove_keep w i suffix m).of_encounter henc hc
    rw [hstep]
    cases hmove with
    | kept reason suffix kept after _ =>
      refine ⟨fun hi => ?_, rfl, _, phase?_of_call (moved_calls_self hc)⟩
      obtain ⟨d, q, hq, hslot⟩ := h.holder i hi
      cases hc.symm.trans hq
      cases hslot

/-! ## Rest and recovery -/

/-- A call for the run begins to write at once. When the store takes its document, the breaker is
closed and counts nothing: if the breaker was open, whatever happens in between, and if not, as long
as no other call has begun by then. -/
def Reaches (w : World σ) (run : Run) (m : Moment) : Prop :=
  let n := w.client.calls.length
  ∃ document attempt, TagDocument.ofRun w.client.settings.limits m.wall run = .ok document ∧
    (w.step (.start run, m)).client.calls[n]? = some ⟨document, .writing attempt⟩ ∧
    .put document ∈ (w.step (.start run, m)).met n ∧
    ∀ es, let after := (w.step (.start run, m)).play es
      (w.client.breaker.isOpen = true ∨ after.client.calls.length = n + 1) →
      ∀ document' attempt', after.client.calls[n]? = some ⟨document', .writing attempt'⟩ →
      ∀ id m', let done := after.step (.answered n (.ok id), m')
        done.client.calls[n]? = some ⟨document', .ended (.ok (.stored id))⟩ ∧
        done.client.breaker.isOpen = false ∧ done.client.breaker.failures = 0

theorem Quiet.reaches {run : Run} (h : w.Quiet) (hh : w.Held)
    (hflight : w.client.breaker.trialInFlight = false) (hrun : RunId.wellFormed run.id = true)
    (hcool : w.client.breaker.Cooled m.steady) : w.Reaches run m := by
  obtain ⟨a, b, hgrant⟩ := Breaker.admit?_of_cooled hflight hcool
  obtain ⟨document, hd⟩ : ∃ document,
      TagDocument.ofRun w.client.settings.limits m.wall run = .ok document := by
    rcases TagDocument.ofRun_cases w.client.settings.limits m.wall run with ⟨hbad, -⟩ | ⟨-, hd⟩
    · rw [hrun] at hbad
      cases hbad
    · exact hd
  have hcall : (w.joined document).client.calls[w.client.calls.length]? =
      some ⟨document, .waiting⟩ := by rw [joined_calls, if_pos rfl]
  have hstep := h.step_start hh hd hgrant
  refine ⟨document, ⟨a, 0, firstPause, m.timer + w.client.settings.ceiling⟩, hd, ?_, ?_, ?_⟩
  · rw [hstep]
    exact moved_calls_self hcall
  · rw [hstep, moved_met, if_pos rfl]
    exact List.mem_append_right _ List.mem_cons_self
  · intro es after hlone document' attempt' hc documentId m'
    have hpursued : after.Pursued w.client.calls.length a b := by
      have hstart : (w.step (.start run, m)).Pursued w.client.calls.length a b := by
        rw [hstep]
        exact h.pursued _ rfl
      exact hstart.play es
    have hlone' : after.client.calls.length = w.client.calls.length + 1 ∨
        ∀ now, b.admit? now = none := hlone.symm.imp id fun hopen now =>
      Breaker.admit?_of_trial hgrant hopen now
    obtain ⟨ha, hb, -⟩ := hpursued.alone hlone' document' _ attempt'.admission hc rfl
    intro done
    have hdone : done = _ := step_answered_ok hc documentId m'
    refine ⟨?_, ?_⟩
    · rw [hdone]
      exact moved_calls_self hc
    · rw [hdone]
      show ((after.client.breaker.succeeded attempt'.admission).isOpen = false ∧
        (after.client.breaker.succeeded attempt'.admission).failures = 0)
      rw [ha, hb]
      exact Breaker.succeeded_of_admit? hgrant

/-- What holds of a client's slots, breaker and calls after a run, for what was done in it. -/
structure Unwedged (settings : TagSettings) (threshold cooldown : Nat) (w : World σ)
    (trace : List (Nat × Dealing)) : Prop where
  /-- What the calls did led from the first slots and the first breaker to those of now. -/
  exact : Shared.replay? ⟨Slots.new settings.concurrency, Breaker.new threshold cooldown⟩ trace =
    some w.shared
  done : ∀ i document p, w.client.calls[i]? = some ⟨document, p⟩ → Done i p (ofCall trace i)
  finished : ∀ i document result, w.client.calls[i]? = some ⟨document, .ended result⟩ →
    Finished (∃ id, .answer (.ok id) ∈ w.met i) (ofCall trace i)
  handsBack : ∀ i, w.HandsBack i
  /-- From any time on, the client by itself can come to rest. -/
  rests : ∀ t, ∃ es, OwnRun t es ∧ (w.play es).Quiet
  quiet : w.Quiet → w.client.breaker.trialInFlight = false ∧
    w.client.slots = ⟨max settings.concurrency 1, max settings.concurrency 1, [], []⟩
  reaches : w.Quiet → ∀ run m, RunId.wellFormed run.id = true →
    (∀ last, Breaker.lastFailed? (trace.filterMap (·.2.breaker?)) = some last →
      last + cooldown ≤ m.steady) → w.Reaches run m

/-- Every run of a new client leaves it able to go on. -/
theorem unwedged_play (settings : TagSettings) (threshold cooldown : Nat) (files : σ)
    (es : List (Event σ × Moment)) :
    let w := new settings (Breaker.new threshold cooldown) files
    (w.play es).Unwedged settings threshold cooldown (w.trace es) := by
  intro w
  have hheld := held_new settings (Breaker.new threshold cooldown) files
  have hh : (w.play es).Held := hheld.play es
  have hexact : w.shared.replay? (w.trace es) = some (w.play es).shared := hheld.replay_play es
  have htold : (w.play es).Told (w.trace es) :=
    (told_new settings (Breaker.new threshold cooldown) files).play es
  have hlends : Breaker.Lends threshold (w.play es).client.breaker (w.play es).out :=
    lends_play (Breaker.lends_new threshold cooldown) es
  have hflight : (w.play es).Quiet → (w.play es).client.breaker.trialInFlight = false := by
    intro hq
    rw [hq.out_eq] at hlends
    exact hlends.quiet
  refine ⟨hexact, htold.call, fun i document result hc => ?_, hh.handsBack, hh.rests,
    fun hq => ⟨hflight hq, ?_⟩, fun hq run m hrun hlast => ?_⟩
  · exact (htold.call i document _ hc).finished (htold.answered i)
  · have htotal : (w.play es).client.slots.total = max settings.concurrency 1 := play_total w es
    rw [hq.slots_eq hh, htotal]
  · exact hq.reaches hh (hflight hq) hrun
      (Breaker.cooled_of_replay? (Shared.breaker_replay? hexact) hlast)

end World
end AfterAction.Tagging
