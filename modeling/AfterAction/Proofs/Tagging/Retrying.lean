import AfterAction.Proofs.Tagging.Dealings
import AfterAction.Proofs.Tagging.Script
import Mathlib.Data.List.Chain

/-!
# A retry loop follows its script

`timeline` records what a call does on its slot in the events of a run, with the readings of the
timer. Whatever the other calls do meanwhile, it is the script that the store's answers set, as far
as the call has got: all of it when the loop ended by itself, and a beginning where the ceiling
fired. A pause is over no earlier than it says. At the breaker the whole loop shows as one result.
-/

namespace AfterAction.Tagging

variable {σ : Type}

/-- The pause that a call enters with a phase. -/
def pauses (m : Moment) : TagPhase → List Act
  | .pausing _ wake => [.pause (wake - m.timer)]
  | _ => []

/-- What a call does and meets on its way to its next phase. -/
def acted (m : Moment) : Encounter σ → TagPhase → List Act
  | .refused, _ => [.refused]
  | .put document, _ => [.put document]
  | .answer answer, p' => .answered answer :: pauses m p'
  | .ceiling, _ => [.ceiling]
  | .fallback _, _ => []

/-- These are the store's answers, in order. -/
def Agrees (results : Nat → Except RemoteFault String) (acts : List Act) : Prop :=
  ∀ (j : Nat) (answer : Except RemoteFault String),
    (acts.filterMap Act.answer?)[j]? = some answer → results j = answer

namespace Agrees

variable {results : Nat → Except RemoteFault String} {acts rest : List Act}

theorem before (h : Agrees results (acts ++ rest)) : Agrees results acts := by
  intro j answer hj
  refine h j answer ?_
  rw [List.filterMap_append, List.getElem?_append_left (List.getElem?_eq_some_iff.mp hj).1]
  exact hj

/-- After so many rounds, this is the answer to the next write. -/
theorem answered {document : TagDocument} {n : Nat} {answer : Except RemoteFault String}
    (h : Agrees results ((rounds document results n ++ [.put document]) ++ .answered answer :: rest)) :
    results n = answer := by
  refine h n answer ?_
  rw [List.append_assoc, List.filterMap_append, answers_rounds]
  have hlength : ((List.range n).map results).length = n := by simp
  rw [List.getElem?_append_right (Nat.le_of_eq hlength), hlength, Nat.sub_self]
  rfl

theorem of_answers {n : Nat} (h : acts.filterMap Act.answer? = (List.range n).map results) :
    Agrees results acts := by
  intro j answer hj
  rw [h, List.getElem?_map] at hj
  obtain ⟨j', hj', rfl⟩ := Option.map_eq_some_iff.mp hj
  obtain ⟨_, hplace⟩ := List.getElem?_eq_some_iff.mp hj'
  rw [← hplace, List.getElem_range]

/-- The record stays in agreement when the next answer is the next result. -/
theorem next (document : TagDocument) (m : Moment) (n : Nat) (p : TagPhase) :
    Agrees results ((rounds document results n ++ [.put document]) ++
      .answered (results n) :: pauses m p) := by
  have hpauses : (pauses m p).filterMap Act.answer? = [] := by cases p <;> rfl
  have hcons : (Act.answered (results n) :: pauses m p).filterMap Act.answer? = [results n] :=
    congrArg (results n :: ·) hpauses
  have hput : [Act.put document].filterMap Act.answer? = [] := rfl
  refine of_answers (n := n + 1) ?_
  rw [List.filterMap_append, List.filterMap_append, answers_rounds, hcons, hput, List.append_nil,
    List.range_succ, List.map_append]
  rfl

end Agrees

/-! ## What a call has done by the time it is in a phase -/

/-- The attempts so far have used up so many retries, and the pauses have grown with them. -/
structure Retrying (settings : TagSettings) (results : Nat → Except RemoteFault String)
    (a : Attempt) : Prop where
  undecided : Undecided results settings.maxRetries a.retries
  pause : a.pause = pauseAfter a.retries

section
variable (settings : TagSettings) (document : TagDocument)
  (results : Nat → Except RemoteFault String) (i : Nat)

/-- What the call at place `i` has done when it is in a phase. -/
inductive Tried : List Act → TagPhase → Prop
  | waiting : Tried [] .waiting
  | writing (a : Attempt) : Retrying settings results a →
      Tried (rounds document results a.retries ++ [.put document]) (.writing a)
  | pausing (a : Attempt) (wake : Nat) : Retrying settings results a →
      Tried (rounds document results a.retries) (.pausing a wake)
  | refused : Tried [.refused] (.keeping .breakerOpen)
  | failed (n : Nat) (fault : RemoteFault) : Undecided results settings.maxRetries n →
      results n = .error fault → (decisive (results n) = true ∨ n = settings.maxRetries) →
      Tried (script document results (n + 1)) (.keeping (.storeFault fault.message))
  | stoppedWriting (n : Nat) : Undecided results settings.maxRetries n →
      Tried ((rounds document results n ++ [.put document]) ++ [.ceiling]) (.keeping .timeout)
  | stoppedPausing (n : Nat) : Undecided results settings.maxRetries n →
      Tried (rounds document results n ++ [.ceiling]) (.keeping .timeout)
  | stored (n : Nat) (id : String) : Undecided results settings.maxRetries n →
      results n = .ok id → Tried (script document results (n + 1)) (.ended (.ok (.stored id)))
  | kept (acts : List Act) (reason : KeptReason) (kept : Fallback.Kept) :
      Tried acts (.keeping reason) → Tried acts (.ended (conclude i reason kept))

end

variable {document : TagDocument} {results : Nat → Except RemoteFault String} {i : Nat}
  {acts : List Act} {p p' : TagPhase} {m : Moment} {x : Encounter σ} {b : Breaker} {w : World σ}

/-- An answer completes the script of as many attempts. -/
theorem script_of_answer {n : Nat} {answer : Except RemoteFault String} (h : results n = answer) :
    (rounds document results n ++ [.put document]) ++ [.answered answer] =
      script document results (n + 1) := by
  rw [script, h, List.append_assoc]
  rfl

theorem Tried.move [FileStore σ] (h : Tried w.client.settings document results i acts p)
    (hm : World.Move w m i document p x p' b) (hr : Agrees results (acts ++ acted m x p')) :
    Tried w.client.settings document results i (acts ++ acted m x p') p' := by
  cases hm with
  | refused _ _ =>
    cases h
    exact .refused
  | admitted a b _ _ =>
    cases h
    exact .writing ⟨a, 0, firstPause, m.timer + w.client.settings.ceiling⟩
      ⟨.zero, pauseAfter_zero.symm⟩
  | stored a id =>
    cases h with
    | writing a ha =>
      have hid := hr.answered
      simp only [acted, pauses, script_of_answer hid]
      exact .stored _ id ha.undecided hid
  | retried a fault hf hlt =>
    cases h with
    | writing a ha =>
      have hfault := hr.answered
      have hdecisive : decisive (results a.retries) = false := by
        rw [hfault]
        simp [decisive, hf]
      have hpause : m.timer + a.pause - m.timer = pauseAfter a.retries := by
        rw [Nat.add_sub_cancel_left, ha.pause]
      have hrounds : (rounds document results a.retries ++ [.put document]) ++
          [.answered (.error fault), .pause (pauseAfter a.retries)] =
            rounds document results (a.retries + 1) := by
        rw [rounds_succ, hfault, List.append_assoc]
        rfl
      simp only [acted, pauses, hpause, hrounds]
      refine .pausing { a with retries := a.retries + 1, pause := _ } _
        ⟨ha.undecided.succ hdecisive hlt, ?_⟩
      simp only [ha.pause, pauseAfter_succ]
  | gaveUp a fault hf =>
    cases h with
    | writing a ha =>
      have hfault := hr.answered
      simp only [acted, pauses, script_of_answer hfault]
      refine .failed _ fault ha.undecided hfault ?_
      cases hretryable : fault.isRetryable with
      | false => exact .inl (by simp [hfault, decisive, hretryable])
      | true => exact .inr (Nat.le_antisymm ha.undecided.le (hf hretryable))
  | resumed a wake _ =>
    cases h with
    | pausing a wake ha => exact .writing a ha
  | expiredWriting a _ =>
    cases h with
    | writing a ha => exact .stoppedWriting _ ha.undecided
  | expiredPausing a wake _ =>
    cases h with
    | pausing a wake ha => exact .stoppedPausing _ ha.undecided
  | kept reason suffix kept after _ =>
    rw [acted, List.append_nil]
    exact .kept acts reason kept h

/-! ## Pauses are kept -/

/-- A write after a pause begins when the pause is over. -/
def Spaced (before after : Nat × Act) : Prop :=
  ∀ length document, before.2 = .pause length → after.2 = .put document →
    before.1 + length ≤ after.1

/-- Writes so far were spaced, and the next one will be, since the call sleeps for its last pause. -/
structure Paced (timeline : List (Nat × Act)) (p : TagPhase) : Prop where
  spaced : timeline.IsChain Spaced
  waiting : p = .waiting → timeline = []
  pausing : ∀ a wake, p = .pausing a wake → ∀ last ∈ timeline.getLast?, ∀ length,
    last.2 = .pause length → last.1 + length ≤ wake

theorem Paced.quiet {timeline rest : List (Nat × Act)} (h : Paced timeline p)
    (hrest : ∀ e ∈ rest, ∀ document, e.2 ≠ Act.put document) : (timeline ++ rest).IsChain Spaced := by
  have hspaced : ∀ before, ∀ after ∈ rest, Spaced before after :=
    fun before after hafter _ document _ hput => absurd hput (hrest after hafter document)
  refine List.isChain_append.mpr ⟨h.spaced, ?_, fun last _ next hnext => ?_⟩
  · exact (List.pairwise_of_forall_mem_list fun before _ after hafter =>
      hspaced before after hafter).isChain
  · exact hspaced last next (List.mem_of_mem_head? hnext)

theorem Paced.put {timeline : List (Nat × Act)} (h : Paced timeline p)
    (hlast : ∀ last ∈ timeline.getLast?, ∀ length, last.2 = .pause length →
      last.1 + length ≤ m.timer) : (timeline ++ [(m.timer, Act.put document)]).IsChain Spaced := by
  refine List.isChain_append.mpr ⟨h.spaced, List.isChain_singleton _, fun last hl next hn => ?_⟩
  obtain rfl := Option.some.inj hn
  exact fun length _ hpause _ => hlast last hl length hpause

theorem Paced.move [FileStore σ] {timeline : List (Nat × Act)} (h : Paced timeline p)
    (hm : World.Move w m i document p x p' b) :
    Paced (timeline ++ (acted m x p').map (Prod.mk m.timer)) p' := by
  cases hm with
  | admitted a b _ _ =>
    refine ⟨h.put fun last hl => ?_, nofun, nofun⟩
    rw [h.waiting rfl] at hl
    cases hl
  | resumed a wake hwake =>
    refine ⟨h.put fun last hl length hlength => ?_, nofun, nofun⟩
    exact Nat.le_trans (h.pausing a wake rfl last hl length hlength) hwake
  | retried a fault _ _ =>
    refine ⟨h.quiet (by simp [acted, pauses]), nofun, ?_⟩
    rintro _ wake hp last hl length hlength
    obtain ⟨-, rfl⟩ := TagPhase.pausing.inj hp
    simp only [acted, pauses, List.map_cons, List.map_nil, List.getLast?_append,
      List.getLast?_cons_cons, List.getLast?_singleton, Option.some_or, Option.mem_some] at hl
    subst hl
    obtain rfl := Act.pause.inj hlength
    omega
  | refused | stored | gaveUp | expiredWriting | expiredPausing =>
    exact ⟨h.quiet (by simp [acted, pauses]), nofun, nofun⟩
  | kept reason suffix kept after _ => exact ⟨h.quiet (by simp [acted]), nofun, nofun⟩

namespace World

/-! ## What a call does in a run -/

variable [FileStore σ] {document : TagDocument}

/-- What the call at place `i` does in an event, with the reading of the timer. -/
def actsAt (w : World σ) (i : Nat) (e : Event σ × Moment) : List (Nat × Act) :=
  match w.encounter? e.2 e.1, (w.step e).client.phase? i with
  | some (j, x), some p' => if j = i then (acted e.2 x p').map (Prod.mk e.2.timer) else []
  | _, _ => []

def timeline (w : World σ) (i : Nat) : List (Event σ × Moment) → List (Nat × Act)
  | [] => []
  | e :: es => w.actsAt i e ++ (w.step e).timeline i es

theorem timeline_append (w : World σ) (i : Nat) (es es' : List (Event σ × Moment)) :
    w.timeline i (es ++ es') = w.timeline i es ++ (w.play es).timeline i es' := by
  induction es generalizing w with
  | nil => rfl
  | cons e es ih =>
    rw [List.cons_append, timeline, timeline, ih, List.append_assoc]
    rfl

theorem actsAt_of_none {e : Event σ × Moment} (h : w.encounter? e.2 e.1 = none) :
    w.actsAt i e = [] := by
  rw [actsAt, h]

theorem actsAt_of_moved {j : Nat} {e : Event σ × Moment}
    (hc : w.client.calls[j]? = some ⟨document, p⟩) (hs : w.step e = w.moved j x p p' b)
    (hx : w.encounter? e.2 e.1 = some (j, x)) :
    w.actsAt i e = if j = i then (acted e.2 x p').map (Prod.mk e.2.timer) else [] := by
  by_cases hj : j = i
  · subst hj
    rw [actsAt, hx, hs, phase?_of_call (moved_calls_self hc)]
  · rw [actsAt, hx, if_neg hj]
    split
    · rename_i heq _
      cases heq
      exact if_neg hj
    · rfl

/-- A call that begins goes on as one that notices its slot. -/
theorem actsAt_start {run : Run}
    (hd : TagDocument.ofRun w.client.settings.limits m.wall run = .ok document) :
    w.actsAt i (.start run, m) =
      (w.joined document).actsAt i (.notice w.client.calls.length, m) := by
  have hstep : w.step (.start run, m) =
      (w.joined document).step (.notice w.client.calls.length, m) := by rw [step_start, hd]
  have hcall : (w.joined document).client.calls[w.client.calls.length]? =
      some ⟨document, .waiting⟩ := by rw [joined_calls, if_pos rfl]
  have hencounter : w.encounter? m (.start run) =
      (w.joined document).encounter? m (.notice w.client.calls.length) := by
    simp only [encounter?, hd, hcall]
    rfl
  rw [actsAt, actsAt, hstep, hencounter]

/-- What new calls, moves and others' use of the files keep of a world and what a call did so far, a
step keeps. -/
theorem timeline_induction {P : World σ → List (Nat × Act) → Prop}
    (hjoin : ∀ w document tl, P w tl → P (w.joined document) tl)
    (hmove : ∀ w m j document p x p' b tl, P w tl → w.client.calls[j]? = some ⟨document, p⟩ →
      Move w m j document p x p' b →
      P (w.moved j x p p' b) (tl ++ if j = i then (acted m x p').map (Prod.mk m.timer) else []))
    (helse : ∀ w (change : σ → σ) tl, P w tl → P { w with files := change w.files } tl)
    {w : World σ} {tl : List (Nat × Act)} (h : P w tl) (es : List (Event σ × Moment)) :
    P (w.play es) (tl ++ w.timeline i es) := by
  have hone : ∀ {w : World σ} {tl e}, P w tl → w.OneMove e → P (w.step e) (tl ++ w.actsAt i e) := by
    rintro w tl e h (⟨hs, hx⟩ | ⟨j, document, p, x, p', b, hc, hm, hs, hx⟩)
    · rw [actsAt_of_none hx, hs, List.append_nil]
      exact h
    · rw [actsAt_of_moved hc hs hx, hs]
      exact hmove w e.2 j document p x p' b tl h hc hm
  have hstep : ∀ (w : World σ) tl e, P w tl → P (w.step e) (tl ++ w.actsAt i e) := by
    rintro w tl ⟨e, m⟩ h
    cases e with
    | start run =>
      cases hd : TagDocument.ofRun w.client.settings.limits m.wall run with
      | error fault =>
        have hs : w.step (.start run, m) = w := by rw [step_start, hd]
        have hx : w.encounter? m (.start run) = none := by simp only [encounter?, hd]
        rw [actsAt_of_none hx, hs, List.append_nil]
        exact h
      | ok document =>
        rw [actsAt_start hd, step_start, hd]
        exact hone (hjoin w document tl h) (oneMove_notice _ _ _)
    | notice j => exact hone h (oneMove_notice w j m)
    | answered j answer => exact hone h (oneMove_answered w j answer m)
    | resume j => exact hone h (oneMove_resume w j m)
    | expire j => exact hone h (oneMove_expire w j m)
    | keep j suffix => exact hone h (oneMove_keep w j suffix m)
    | elsewhere change =>
      have hs : w.step (.elsewhere change, m) = { w with files := change w.files } := by
        simp [step, happen, encounter?]
      rw [actsAt_of_none rfl, hs, List.append_nil]
      exact helse w change tl h
  induction es generalizing w tl with
  | nil =>
    rw [timeline, List.append_nil]
    exact h
  | cons e es ih =>
    rw [timeline, ← List.append_assoc]
    exact ih (hstep w tl e h)

/-- What the record of a call's acts says of the call. -/
structure Followed (settings : TagSettings) (i : Nat) (w : World σ) (tl : List (Nat × Act)) :
    Prop where
  same : w.client.settings = settings
  none : w.client.calls.length ≤ i → tl = []
  call : ∀ document p, w.client.calls[i]? = some ⟨document, p⟩ → Paced tl p ∧
    ∀ results, Agrees results (tl.map Prod.snd) →
      Tried settings document results i (tl.map Prod.snd) p

variable {settings : TagSettings} {tl : List (Nat × Act)}

omit [FileStore σ] in
theorem followed_new (settings : TagSettings) (breaker : Breaker) (files : σ) (i : Nat) :
    Followed settings i (new settings breaker files) [] :=
  ⟨rfl, fun _ => rfl, fun document p hc => by simp [new, Tagging.new] at hc⟩

omit [FileStore σ] in
theorem Followed.joined (h : Followed settings i w tl) (document : TagDocument) :
    Followed settings i (w.joined document) tl := by
  have hlen : (w.joined document).client.calls.length = w.client.calls.length + 1 := by
    simp [World.joined]
  refine ⟨h.same, fun hi => h.none (by omega), fun d p hc => ?_⟩
  rw [joined_calls] at hc
  split at hc
  · rename_i hi
    cases hc
    rw [h.none (Nat.le_of_eq hi.symm)]
    refine ⟨⟨.nil, fun _ => rfl, fun a wake hp => ?_⟩, fun _ _ => .waiting⟩
    cases hp
  · exact h.call d p hc

theorem Followed.moved {j : Nat} (h : Followed settings i w tl)
    (hc : w.client.calls[j]? = some ⟨document, p⟩) (hm : Move w m j document p x p' b) :
    Followed settings i (w.moved j x p p' b)
      (tl ++ if j = i then (acted m x p').map (Prod.mk m.timer) else []) := by
  have hlen : (w.moved j x p p' b).client.calls.length = w.client.calls.length := by
    simp [World.moved]
  have hj := (List.getElem?_eq_some_iff.mp hc).1
  by_cases hij : j = i
  · subst hij
    rw [if_pos rfl]
    obtain ⟨hpaced, htried⟩ := h.call document p hc
    refine ⟨h.same, fun hi => absurd hj (by omega), fun d q hd => ?_⟩
    cases (moved_calls_self hc).symm.trans hd
    refine ⟨hpaced.move hm, fun results hr => ?_⟩
    have hacts : (tl ++ (acted m x p').map (Prod.mk m.timer)).map Prod.snd =
        tl.map Prod.snd ++ acted m x p' := by simp [Function.comp_def]
    rw [hacts] at hr ⊢
    have hbefore := htried results hr.before
    rw [← h.same] at hbefore ⊢
    exact hbefore.move hm hr
  · rw [if_neg hij, List.append_nil]
    refine ⟨h.same, fun hi => h.none (hlen ▸ hi), fun d q hd => h.call d q ?_⟩
    exact (moved_calls_ne w (Ne.symm hij)).symm.trans hd

theorem followed_play (settings : TagSettings) (breaker : Breaker) (files : σ) (i : Nat)
    (es : List (Event σ × Moment)) :
    Followed settings i ((new settings breaker files).play es)
      ((new settings breaker files).timeline i es) :=
  timeline_induction (fun _ document _ h => h.joined document)
    (fun _ _ _ _ _ _ _ _ _ h hc hm => h.moved hc hm) (fun _ _ _ h => ⟨h.same, h.none, h.call⟩)
    (followed_new settings breaker files i) es

end World
end AfterAction.Tagging
