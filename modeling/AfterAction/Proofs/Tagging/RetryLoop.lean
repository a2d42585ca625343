import AfterAction.Files.Memory
import AfterAction.Proofs.Tagging.Retrying

/-!
# How a retry loop ends

A loop that has left its slot went through its whole script, was cut off by the ceiling, or was
never let in by the breaker; a loop that has not can be brought to the end of its script by answers
and by time alone. Its counters stay below the number of retries and the longest pause, and in the
record of what the calls did with the breaker it stands with one admission and one result.
-/

namespace AfterAction.Tagging

variable {σ : Type} {settings : TagSettings} {document : TagDocument}
  {results : Nat → Except RemoteFault String} {i : Nat} {k : Option Nat} {acts : List Act}
  {p : TagPhase}

/-- The document is kept back for a reason, or was. -/
def KeptBack (i : Nat) (reason : KeptReason) (p : TagPhase) : Prop :=
  p = .keeping reason ∨ ∃ kept, p = .ended (conclude i reason kept)

/-- How the loop of the call at place `i` has ended, by what the call did and where it went. -/
inductive LoopEnd (i : Nat) (whole : List Act) (last : Except RemoteFault String) :
    List Act → TagPhase → Prop
  | refused (p : TagPhase) : KeptBack i .breakerOpen p → LoopEnd i whole last [.refused] p
  | ceiling (done : List Act) (p : TagPhase) : done <+: whole → KeptBack i .timeout p →
      LoopEnd i whole last (done ++ [.ceiling]) p
  | stored (id : String) : last = .ok id → LoopEnd i whole last whole (.ended (.ok (.stored id)))
  | failed (fault : RemoteFault) (p : TagPhase) : last = .error fault →
      KeptBack i (.storeFault fault.message) p → LoopEnd i whole last whole p

theorem Tried.underWay (h : Tried settings document results i acts p)
    (hk : FirstDecisive results k) (hp : World.onSlot p = true) :
    acts <+: script document results (attemptCount settings.maxRetries k) := by
  cases h with
  | waiting => exact List.nil_prefix
  | writing a ha => exact rounds_put_isPrefix_script (ha.undecided.lt_attemptCount hk)
  | pausing a wake ha => exact rounds_isPrefix_script (ha.undecided.lt_attemptCount hk)
  | refused | failed | stoppedWriting | stoppedPausing | stored | kept => cases hp

/-- The last answer of a loop that went through its script. -/
theorem Undecided.script_eq {n : Nat} (h : Undecided results settings.maxRetries n)
    (hk : FirstDecisive results k)
    (hlast : decisive (results n) = true ∨ n = settings.maxRetries) :
    script document results (n + 1) =
      script document results (attemptCount settings.maxRetries k) ∧
    results (attemptCount settings.maxRetries k - 1) = results n := by
  rw [h.attemptCount_eq hk hlast]
  exact ⟨rfl, rfl⟩

theorem Tried.keptBack {reason : KeptReason}
    (h : Tried settings document results i acts (.keeping reason))
    (hk : FirstDecisive results k) (hp : KeptBack i reason p) :
    LoopEnd i (script document results (attemptCount settings.maxRetries k))
      (results (attemptCount settings.maxRetries k - 1)) acts p := by
  cases h with
  | refused => exact .refused p hp
  | failed n fault hn hfault hlast =>
    obtain ⟨hscript, hresult⟩ := hn.script_eq hk hlast
    rw [hscript]
    exact .failed fault p (hresult.trans hfault) hp
  | stoppedWriting n hn =>
    exact .ceiling _ p (rounds_put_isPrefix_script (hn.lt_attemptCount hk)) hp
  | stoppedPausing n hn =>
    exact .ceiling _ p (rounds_isPrefix_script (hn.lt_attemptCount hk)) hp

theorem Tried.loopEnd (h : Tried settings document results i acts p)
    (hk : FirstDecisive results k) (hp : World.onSlot p = false) :
    LoopEnd i (script document results (attemptCount settings.maxRetries k))
      (results (attemptCount settings.maxRetries k - 1)) acts p := by
  cases p with
  | waiting => cases hp
  | writing a => cases hp
  | pausing a wake => cases hp
  | keeping reason => exact h.keptBack hk (.inl rfl)
  | ended result =>
    cases h with
    | stored n id hn hid =>
      obtain ⟨hscript, hresult⟩ := hn.script_eq hk (.inl (by rw [hid]; rfl))
      rw [hscript]
      exact .stored id (hresult.trans hid)
    | kept acts reason kept hkeeping => exact hkeeping.keptBack hk (.inr ⟨kept, rfl⟩)

theorem Tried.of_writing {a : Attempt} (h : Tried settings document results i acts (.writing a)) :
    Retrying settings results a ∧ acts = rounds document results a.retries ++ [.put document] := by
  cases h with
  | writing a ha => exact ⟨ha, rfl⟩

theorem Tried.of_pausing {a : Attempt} {wake : Nat}
    (h : Tried settings document results i acts (.pausing a wake)) :
    Retrying settings results a ∧ acts = rounds document results a.retries := by
  cases h with
  | pausing a wake ha => exact ⟨ha, rfl⟩

theorem LoopEnd.puts {n : Nat} {last : Except RemoteFault String}
    (h : LoopEnd i (script document results n) last acts p) (hlet : .refused ∉ acts)
    (hceiling : .ceiling ∉ acts) : acts.filterMap Act.put? = List.replicate n document := by
  cases h with
  | refused => exact absurd List.mem_cons_self hlet
  | ceiling done => exact absurd (List.mem_append_right done List.mem_cons_self) hceiling
  | stored | failed => exact puts_script document results n

/-- No counter of a loop grows past its bound. -/
theorem Retrying.bounded {a : Attempt} (h : Retrying settings results a) :
    a.retries ≤ settings.maxRetries ∧ a.pause ≤ longestPause :=
  ⟨h.undecided.le, h.pause ▸ pauseAfter_le a.retries⟩

/-! ## One result at the breaker -/

/-- All that a call does to the breaker: it is refused, or it is let in and reports once. -/
inductive OneResult : List Breaker.Dealing → Prop
  | refused (now : Nat) : OneResult [.refused now]
  | succeeded (a : Admission) (now : Nat) : OneResult [.granted a now, .succeeded a]
  | failed (a : Admission) (now later : Nat) : OneResult [.granted a now, .failed a later]

theorem Done.oneResult {ds : List Dealing} (h : Done i p ds) (hp : World.onSlot p = false) :
    OneResult (ds.filterMap Dealing.breaker?) := by
  induction h with
  | waiting | writing | pausing => cases hp
  | stored a id now => exact .succeeded a now
  | refused now => exact .refused now
  | failed a reason now later _ => exact .failed a now later
  | recorded reason kept ds _ ih =>
    have hnothing : [Dealing.recorded].filterMap Dealing.breaker? = [] := rfl
    rw [List.filterMap_append, hnothing, List.append_nil]
    exact ih rfl

end AfterAction.Tagging

namespace AfterAction.Breaker

variable {b b' : Breaker}

/-- Reports how an admitted call came out. -/
def Dealing.isResult : Dealing → Bool
  | .succeeded _ | .failed _ _ => true
  | .granted _ _ | .refused _ => false

/-- Only a result changes the count of failures. -/
theorem failures_of_not_result {d : Dealing} (h : b.deal? d = some b') (hd : d.isResult = false) :
    b'.failures = b.failures := by
  cases d with
  | granted a now =>
    rcases admit?_cases (admit?_of_deal? h) with ⟨-, -, rfl⟩ | ⟨-, -, -, -, rfl⟩
    · rfl
    · rfl
  | refused now => rw [eq_of_deal?_refused h]
  | succeeded a => cases hd
  | failed a now => cases hd

theorem failures_replay? {ds : List Dealing} (h : b.replay? ds = some b')
    (hds : ∀ d ∈ ds, d.isResult = false) : b'.failures = b.failures := by
  induction ds generalizing b with
  | nil =>
    cases h
    rfl
  | cons d ds ih =>
    rw [replay?, List.foldlM_cons] at h
    obtain ⟨reached, hd, hrest⟩ := Option.bind_eq_some_iff.mp h
    rw [ih hrest fun d' hd' => hds d' (List.mem_cons_of_mem _ hd'),
      failures_of_not_result hd (hds d List.mem_cons_self)]

end AfterAction.Breaker

namespace AfterAction.Tagging

variable {σ : Type} {settings : TagSettings} {document : TagDocument}
  {results : Nat → Except RemoteFault String} {i : Nat} {k : Option Nat} {acts : List Act}
  {p : TagPhase}

namespace World

/-! ## Loops end -/

/-- Answers of the store to a call, and the time in which its pauses pass. -/
def Spurs (i : Nat) (results : Nat → Except RemoteFault String) (es : List (Event σ × Moment)) :
    Prop :=
  ∀ e ∈ es, e.1 = .resume i ∨ ∃ j, e.1 = .answered i (results j)

theorem spurs_resume (m : Moment) :
    Spurs i results ([(.resume i, m)] : List (Event σ × Moment)) := by
  rintro e he
  rw [List.mem_singleton.mp he]
  exact .inl rfl

theorem spurs_answered (j : Nat) (m : Moment) :
    Spurs i results ([(.answered i (results j), m)] : List (Event σ × Moment)) := by
  rintro e he
  rw [List.mem_singleton.mp he]
  exact .inr ⟨j, rfl⟩

theorem Spurs.append {es es' : List (Event σ × Moment)} (h : Spurs i results es)
    (h' : Spurs i results es') : Spurs i results (es ++ es') := by
  intro e he
  rcases List.mem_append.mp he with he | he
  · exact h e he
  · exact h' e he

variable [FileStore σ] {w : World σ}

/-- The store took the document, or its fault was the last answer. -/
def Concluded (p : TagPhase) : Prop :=
  (∃ id, p = .ended (.ok (.stored id))) ∨ ∃ text, p = .keeping (.storeFault text)

/-- The call is where its move has brought it, and the settings are the same. -/
theorem play_singleton {e : Event σ × Moment} {x : Encounter σ} {p' : TagPhase} {b : Breaker}
    (hc : w.client.calls[i]? = some ⟨document, p⟩) (hs : w.step e = w.moved i x p p' b) :
    (w.play [e]).client.calls[i]? = some ⟨document, p'⟩ ∧
      (w.play [e]).client.settings = w.client.settings := by
  have hplay : w.play [e] = w.moved i x p p' b := hs
  rw [hplay]
  exact ⟨moved_calls_self hc, rfl⟩

theorem timeline_singleton {e : Event σ × Moment} {x : Encounter σ} {p' : TagPhase} {b : Breaker}
    (hc : w.client.calls[i]? = some ⟨document, p⟩) (hs : w.step e = w.moved i x p p' b)
    (hx : w.encounter? e.2 e.1 = some (i, x)) :
    (w.timeline i [e]).map Prod.snd = acted e.2 x p' := by
  rw [timeline, timeline, List.append_nil, actsAt_of_moved hc hs hx, if_pos rfl]
  simp [Function.comp_def]

/-- The next answer ends the loop or begins a pause. -/
theorem answer_next (m : Moment) {a : Attempt}
    (hc : w.client.calls[i]? = some ⟨document, .writing a⟩)
    (ha : Retrying w.client.settings results a) :
    ∃ e p', Spurs i results [e] ∧ (w.play [e]).client.calls[i]? = some ⟨document, p'⟩ ∧
      (w.play [e]).client.settings = w.client.settings ∧
      Tried w.client.settings document results i
        ((rounds document results a.retries ++ [.put document]) ++
          (w.timeline i [e]).map Prod.snd) p' ∧
      (Concluded p' ∨ a.retries < w.client.settings.maxRetries ∧
        ∃ a' wake, p' = .pausing a' wake ∧ a'.retries = a.retries + 1) := by
  obtain ⟨answer, hanswer⟩ : ∃ answer, results a.retries = answer := ⟨_, rfl⟩
  have hx := encounter?_answered hc answer m
  obtain ⟨p', b, hm, hs⟩ := (oneMove_answered w i answer m).of_encounter hx hc
  have hagrees : Agrees results ((rounds document results a.retries ++ [.put document]) ++
      acted m (Encounter.answer answer : Encounter σ) p') := by
    rw [acted, ← hanswer]
    exact .next document m a.retries p'
  have htried := (Tried.writing a ha).move hm hagrees
  obtain ⟨hmoved, hsame⟩ := play_singleton hc hs
  refine ⟨(.answered i answer, m), p', hanswer ▸ spurs_answered a.retries m, hmoved, hsame, ?_, ?_⟩
  · rw [timeline_singleton hc hs hx]
    exact htried
  · cases hm with
    | stored a id => exact .inl (.inl ⟨id, rfl⟩)
    | gaveUp a fault _ => exact .inl (.inr ⟨_, rfl⟩)
    | retried a fault _ hlt => exact .inr ⟨hlt, _, _, rfl, rfl⟩

/-- The end of a pause begins the next write. -/
theorem pause_next (results : Nat → Except RemoteFault String) (m : Moment) {a : Attempt}
    {wake : Nat} (hc : w.client.calls[i]? = some ⟨document, .pausing a wake⟩) :
    ∃ e, Spurs i results [e] ∧ (w.play [e]).client.calls[i]? = some ⟨document, .writing a⟩ ∧
      (w.play [e]).client.settings = w.client.settings ∧
      (w.timeline i [e]).map Prod.snd = [.put document] := by
  have hx : w.encounter? { m with timer := wake } (.resume i) = some (i, .put document) := by
    simp only [encounter?, hc]
    exact if_pos (Nat.le_refl wake)
  obtain ⟨p', b, hm, hs⟩ := (oneMove_resume w i { m with timer := wake }).of_encounter hx hc
  cases hm with
  | resumed a wake _ =>
    obtain ⟨hmoved, hsame⟩ := play_singleton hc hs
    exact ⟨(.resume i, { m with timer := wake }), spurs_resume _, hmoved, hsame,
      timeline_singleton hc hs hx⟩

/-- Answers and time can bring a loop that writes to its end. The induction is on the retries that
are left. -/
theorem exists_concluded (m : Moment) (left : Nat) {a : Attempt}
    (hleft : w.client.settings.maxRetries - a.retries ≤ left)
    (hc : w.client.calls[i]? = some ⟨document, .writing a⟩)
    (ha : Retrying w.client.settings results a) :
    ∃ rest p', Spurs i results rest ∧ (w.play rest).client.calls[i]? = some ⟨document, p'⟩ ∧
      Tried w.client.settings document results i
        ((rounds document results a.retries ++ [.put document]) ++
          (w.timeline i rest).map Prod.snd) p' ∧ Concluded p' := by
  induction left generalizing w a with
  | zero =>
    obtain ⟨e, p', hspurs, hanswered, -, htried, hend | ⟨hlt, -⟩⟩ := answer_next m hc ha
    · exact ⟨[e], p', hspurs, hanswered, htried, hend⟩
    · omega
  | succ left ih =>
    obtain ⟨e, p', hspurs, hanswered, hsame, htried, hend | ⟨hlt, a', wake, rfl, hretries⟩⟩ :=
      answer_next m hc ha
    · exact ⟨[e], p', hspurs, hanswered, htried, hend⟩
    · obtain ⟨ha', hrounds⟩ := htried.of_pausing
      obtain ⟨e', hspurs', hwriting, hsame', hput⟩ := pause_next results m hanswered
      have hsettings := hsame'.trans hsame
      obtain ⟨rest, p', hrest, hlast, htried', hend⟩ :=
        ih (w := (w.play [e]).play [e']) (a := a') (by rw [hsettings]; omega) hwriting
          (by rw [hsettings]; exact ha')
      refine ⟨[e] ++ ([e'] ++ rest), p', hspurs.append (hspurs'.append hrest), hlast, ?_, hend⟩
      rw [timeline_append, timeline_append, List.map_append, List.map_append, hput,
        ← List.append_assoc, hrounds, ← List.append_assoc, ← hsettings]
      exact htried'

/-- So can a loop be brought to its end that is in a pause. -/
theorem exists_concluded_of_tried (m : Moment) {a : Attempt}
    (hc : w.client.calls[i]? = some ⟨document, p⟩)
    (h : Tried w.client.settings document results i acts p)
    (hp : p = .writing a ∨ ∃ wake, p = .pausing a wake) :
    ∃ rest p', Spurs i results rest ∧ (w.play rest).client.calls[i]? = some ⟨document, p'⟩ ∧
      Tried w.client.settings document results i
        (acts ++ (w.timeline i rest).map Prod.snd) p' ∧ Concluded p' := by
  rcases hp with rfl | ⟨wake, rfl⟩
  · obtain ⟨ha, rfl⟩ := h.of_writing
    exact exists_concluded m _ (Nat.le_refl _) hc ha
  · obtain ⟨ha, rfl⟩ := h.of_pausing
    obtain ⟨e, hspurs, hwriting, hsame, hput⟩ := pause_next results m hc
    obtain ⟨rest, p', hrest, hlast, htried, hend⟩ :=
      exists_concluded (w := w.play [e]) m _ (Nat.le_refl _) hwriting (hsame.symm ▸ ha)
    refine ⟨[e] ++ rest, p', hspurs.append hrest, hlast, ?_, hend⟩
    rw [timeline_append, List.map_append, hput, ← List.append_assoc, ← hsame]
    exact htried

/-- A loop that concluded went through its whole script. -/
theorem acts_of_concluded {whole : List Act} {last : Except RemoteFault String}
    (h : LoopEnd i whole last acts p) (hp : Concluded p) : acts = whole := by
  cases h with
  | stored | failed => rfl
  | refused p hkept | ceiling done p _ hkept =>
    rcases hkept with rfl | ⟨kept, rfl⟩
    · rcases hp with ⟨id, he⟩ | ⟨text, he⟩
      · cases he
      · cases he
    · rcases hp with ⟨id, he⟩ | ⟨text, he⟩
      · cases kept <;> cases he
      · cases he

theorem Held.failures_step (h : w.Held) (e : Event σ × Moment)
    (hnone : ∀ d ∈ (w.dealings e).filterMap (·.2.breaker?), d.isResult = false) :
    (w.step e).client.breaker.failures = w.client.breaker.failures := by
  have hreplay : w.shared.replay? ([] ++ w.dealings e) = some (w.step e).shared :=
    h.replay_step rfl e
  exact Breaker.failures_replay? (Shared.breaker_replay? hreplay) hnone

/-! ## The loop of a call in a run -/

/-- What holds of the loop of the call at place `i` after a run from a new world, when the call is
in the phase `p`, the store's answers are these results, and the first decisive one is at `k`. -/
structure Loops (settings : TagSettings) (start : World σ) (es : List (Event σ × Moment)) (i : Nat)
    (document : TagDocument) (p : TagPhase) (results : Nat → Except RemoteFault String)
    (k : Option Nat) : Prop where
  /-- On its slot the call is somewhere in its script. -/
  underWay : onSlot p = true → (start.timeline i es).map Prod.snd <+:
    script document results (attemptCount settings.maxRetries k)
  /-- Off its slot it has been through it, or something has kept it from that. -/
  ended : onSlot p = false → LoopEnd i (script document results (attemptCount settings.maxRetries k))
    (results (attemptCount settings.maxRetries k - 1)) ((start.timeline i es).map Prod.snd) p
  /-- Unless something has, it made all its attempts, each with the document. -/
  attempts : onSlot p = false → .refused ∉ (start.timeline i es).map Prod.snd →
    .ceiling ∉ (start.timeline i es).map Prod.snd →
    ((start.timeline i es).map Prod.snd).filterMap Act.put? =
      List.replicate (attemptCount settings.maxRetries k) document
  spaced : (start.timeline i es).IsChain Spaced
  bounded : ∀ a, p = .writing a ∨ (∃ wake, p = .pausing a wake) →
    a.retries ≤ settings.maxRetries ∧ a.pause ≤ longestPause
  /-- Answers and time are enough for it to end. -/
  ends : ∀ a, p = .writing a ∨ (∃ wake, p = .pausing a wake) → ∃ rest p', Spurs i results rest ∧
    (start.play (es ++ rest)).client.calls[i]? = some ⟨document, p'⟩ ∧ Concluded p' ∧
    (start.timeline i (es ++ rest)).map Prod.snd =
      script document results (attemptCount settings.maxRetries k)
  /-- At the breaker the whole call is one admission and one result, in a record that is exact. -/
  oneResult : onSlot p = false →
    OneResult ((ofCall (start.trace es) i).filterMap Dealing.breaker?)
  exact : start.shared.replay? (start.trace es) = some (start.play es).shared
  /-- An event in which no call reports a result leaves the count of failures alone. -/
  counted (e : Event σ × Moment) :
    (∀ d ∈ ((start.play es).dealings e).filterMap (·.2.breaker?), d.isResult = false) →
      ((start.play es).step e).client.breaker.failures = (start.play es).client.breaker.failures

/-- **The retry loop of a call**, after any events, with whatever other calls there are: it follows
the script that its answers set. -/
theorem play_loops (settings : TagSettings) (breaker : Breaker) (files : σ)
    (es : List (Event σ × Moment)) (hc : ((new settings breaker files).play es).client.calls[i]? =
      some ⟨document, p⟩) (hk : FirstDecisive results k)
    (hr : Agrees results (((new settings breaker files).timeline i es).map Prod.snd)) :
    Loops settings (new settings breaker files) es i document p results k := by
  have hfollowed := followed_play settings breaker files i es
  obtain ⟨hpaced, htried⟩ := hfollowed.call document p hc
  have htried := htried results hr
  have htold := ((told_new settings breaker files).play es).call i document p hc
  exact {
    underWay := htried.underWay hk
    ended := htried.loopEnd hk
    attempts := fun hp hlet hceiling => (htried.loopEnd hk hp).puts hlet hceiling
    spaced := hpaced.spaced
    bounded := fun a hp => by
      rcases hp with rfl | ⟨wake, rfl⟩
      · exact htried.of_writing.1.bounded
      · exact htried.of_pausing.1.bounded
    ends := fun a hp => by
      obtain ⟨rest, p', hspurs, hlast, hend, hconcluded⟩ :=
        exists_concluded_of_tried ⟨⟨0, 0, 0⟩, 0, 0⟩ hc (hfollowed.same.symm ▸ htried) hp
      rw [hfollowed.same] at hend
      rw [← play_append] at hlast
      have hoff : onSlot p' = false := by
        rcases hconcluded with ⟨id, rfl⟩ | ⟨text, rfl⟩
        · rfl
        · rfl
      refine ⟨rest, p', hspurs, hlast, hconcluded, ?_⟩
      rw [timeline_append, List.map_append]
      exact acts_of_concluded (hend.loopEnd hk hoff) hconcluded
    oneResult := htold.oneResult
    exact := (held_new settings breaker files).replay_play es
    counted := ((held_new settings breaker files).play es).failures_step }

/-- Noon, with the timer at this reading. -/
def noonOf (timer : Nat) : Moment := ⟨⟨20000, Instant.secondOf 43200, Instant.nanoOf 0⟩, 0, timer⟩

def nightly : Run := ⟨"op-retry-0001", "Nightly", "acme", .finished, none, none, []⟩

def nightlyDocument : TagDocument :=
  .assemble (noonOf 0).wall "op-retry-0001" "Nightly" "acme" .finished [] []

/-- One call at a time, with two retries. -/
def patient : TagSettings := ⟨1, 30000, 2, .standard, "fallback"⟩

/-- The store is busy once. -/
def busyOnce : Nat → Except RemoteFault String
  | 0 => .error (.refused 503 "busy")
  | _ => .ok "op-retry-0001"

def retryOnce : List (Event MemoryFiles × Moment) :=
  [(.start nightly, noonOf 0), (.answered 0 (busyOnce 0), noonOf 10), (.resume 0, noonOf 260),
    (.answered 0 (busyOnce 1), noonOf 300)]

theorem retryOnce_loops :
    let start : World MemoryFiles := new patient (.new 5 60000000000) MemoryFiles.empty
    (start.play retryOnce).client.calls[0]? =
      some ⟨nightlyDocument, .ended (.ok (.stored "op-retry-0001"))⟩ ∧
    FirstDecisive busyOnce (some 2) ∧
    Agrees busyOnce ((start.timeline 0 retryOnce).map Prod.snd) ∧
    Loops patient start retryOnce 0 nightlyDocument (.ended (.ok (.stored "op-retry-0001")))
      busyOnce (some 2) := by
  intro start
  have hc : (start.play retryOnce).client.calls[0]? =
      some ⟨nightlyDocument, .ended (.ok (.stored "op-retry-0001"))⟩ := rfl
  have hk : FirstDecisive busyOnce (some 2) := by
    refine ⟨by decide, rfl, fun j hj => ?_⟩
    obtain rfl : j = 0 := by omega
    rfl
  have hr : Agrees busyOnce ((start.timeline 0 retryOnce).map Prod.snd) := .of_answers (n := 2) rfl
  have hloops : Loops patient start retryOnce 0 nightlyDocument
      (.ended (.ok (.stored "op-retry-0001"))) busyOnce (some 2) :=
    play_loops patient (.new 5 60000000000) MemoryFiles.empty retryOnce hc hk hr
  refine ⟨?_, hk, ?_, ?_⟩
  · exact hc
  · exact hr
  · exact hloops

example : ((new patient (.new 5 60000000000) MemoryFiles.empty).timeline 0 retryOnce).map Prod.fst =
    [0, 10, 10, 260, 300] := rfl

end World
end AfterAction.Tagging
