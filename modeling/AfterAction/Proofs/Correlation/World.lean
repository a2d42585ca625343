import AfterAction.Correlation
import AfterAction.Proofs.Breaker.Loans

/-!
# Fetches of detections

`World` is a correlation with all that was fetched through it: each fetch is refused at once or asks
the store, and ends with an answer, with a fault or by its time. `step` lets one thing happen. A step
begins one fetch or ends one, or nothing happens; `Begins` and `Ends` say once how. `trace` is what
the fetches did to the breaker, and `Told` that each of them has done what its phase says.
-/

namespace AfterAction

/-- Where a fetch stands. -/
inductive FetchPhase
  | asking (query : DetectionQuery)
  | ended (detections : Detections)
  deriving DecidableEq

structure Fetch where
  run : Run
  phase : FetchPhase

/-- The admission of a fetch that asks. -/
def FetchPhase.admission? : FetchPhase → Option Admission
  | .asking query => some query.admission
  | .ended _ => none

namespace Correlation

/-- What a fetch meets at the store. -/
inductive Encounter
  | query (runId : RunId)
  | answer (answer : Except RemoteFault (List Evidence))
  | timeout

/-- What can happen. Fetches are known by their places. -/
inductive Event
  | fetch (run : Run)
  | answered (i : Nat) (answer : Except RemoteFault (List Evidence))
  | expire (i : Nat)

structure World where
  correlation : Correlation
  fetches : List Fetch
  /-- In order, with the places of the fetches. -/
  log : List (Nat × Encounter)

namespace World

def new (timeout window : Nat) (breaker : Breaker) : World := ⟨⟨timeout, window, breaker⟩, [], []⟩

/-- A new fetch, in the phase that it begins in. -/
def begun (w : World) (run : Run) (p : FetchPhase) (xs : List Encounter) (b : Breaker) : World where
  correlation := { w.correlation with breaker := b }
  fetches := w.fetches ++ [⟨run, p⟩]
  log := w.log ++ xs.map (Prod.mk w.fetches.length)

/-- A fetch has its detections. -/
def ended (w : World) (i : Nat) (x : Encounter) (d : Detections) (b : Breaker) : World where
  correlation := { w.correlation with breaker := b }
  fetches := w.fetches.modify i fun fetch => { fetch with phase := .ended d }
  log := w.log ++ [(i, x)]

def step (w : World) (e : Event × Moment) : World :=
  match e with
  | (.fetch run, m) =>
    match w.correlation.ask run m with
    | (.ok query, c) => w.begun run (.asking query) [.query query.runId] c.breaker
    | (.error d, c) => w.begun run (.ended d) [] c.breaker
  | (.answered i answer, m) =>
    match w.fetches[i]? with
    | some ⟨run, .asking query⟩ =>
      let (d, c) := w.correlation.answered run query answer m
      w.ended i (.answer answer) d c.breaker
    | _ => w
  | (.expire i, m) =>
    match w.fetches[i]? with
    | some ⟨_, .asking query⟩ =>
      if query.deadline ≤ m.timer then
        let (d, c) := w.correlation.expired query m
        w.ended i .timeout d c.breaker
      else w
    | _ => w

def play (w : World) (es : List (Event × Moment)) : World := es.foldl step w

/-- What an event does to the breaker, read off the phase of its fetch before and after. -/
def dealings (w : World) (e : Event × Moment) : List (Nat × Breaker.Dealing) :=
  match e with
  | (.fetch run, m) =>
    match (w.step e).fetches[w.fetches.length]? with
    | some ⟨_, .asking query⟩ => [(w.fetches.length, .granted query.admission m.steady)]
    | _ => if RunId.wellFormed run.id then [(w.fetches.length, .refused m.steady)] else []
  | (.answered i answer, m) =>
    match w.fetches[i]?, answer with
    | some ⟨_, .asking query⟩, .ok _ => [(i, .succeeded query.admission)]
    | some ⟨_, .asking query⟩, .error _ => [(i, .failed query.admission m.steady)]
    | _, _ => []
  | (.expire i, m) =>
    match w.fetches[i]?, (w.step e).fetches[i]? with
    | some ⟨_, .asking query⟩, some ⟨_, .ended _⟩ => [(i, .failed query.admission m.steady)]
    | _, _ => []

def trace (w : World) : List (Event × Moment) → List (Nat × Breaker.Dealing)
  | [] => []
  | e :: es => w.dealings e ++ (w.step e).trace es

/-! ## What a step can do -/

/-- How a fetch begins: its phase, what it meets, what it does to the breaker, and the breaker
afterwards. -/
inductive Begins (w : World) (m : Moment) (run : Run) :
    FetchPhase → List Encounter → List Breaker.Dealing → Breaker → Prop
  | malformed (d : Detections) : RunId.wellFormed run.id = false →
      Begins w m run (.ended d) [] [] w.correlation.breaker
  | refused : RunId.wellFormed run.id = true → w.correlation.breaker.admit? m.steady = none →
      Begins w m run (.ended circuitOpen) [] [.refused m.steady] w.correlation.breaker
  | asked (id : RunId) (a : Admission) (b : Breaker) : id.text = run.id →
      w.correlation.breaker.admit? m.steady = some (a, b) →
      Begins w m run (.asking ⟨id, a, m.timer + w.correlation.timeout⟩) [.query id]
        [.granted a m.steady] b

/-- How a fetch ends that asks. -/
inductive Ends (w : World) (m : Moment) (query : DetectionQuery) :
    Encounter → Breaker.Dealing → Breaker → Prop
  | answered (evidence : List Evidence) :
      Ends w m query (.answer (.ok evidence)) (.succeeded query.admission)
        (w.correlation.breaker.succeeded query.admission)
  | failed (fault : RemoteFault) :
      Ends w m query (.answer (.error fault)) (.failed query.admission m.steady)
        (w.correlation.breaker.failed query.admission m.steady)
  | expired : query.deadline ≤ m.timer →
      Ends w m query .timeout (.failed query.admission m.steady)
        (w.correlation.breaker.failed query.admission m.steady)

variable {w : World} {run : Run} {m : Moment} {i : Nat} {p : FetchPhase} {query : DetectionQuery}
  {x : Encounter} {xs : List Encounter} {ds : List Breaker.Dealing} {dealing : Breaker.Dealing}
  {d : Detections} {b : Breaker} {trace : List (Nat × Breaker.Dealing)}

theorem begun_fetches (w : World) (run : Run) (p : FetchPhase) (xs : List Encounter) (b : Breaker)
    (j : Nat) : (w.begun run p xs b).fetches[j]? =
      if j = w.fetches.length then some ⟨run, p⟩ else w.fetches[j]? := by
  rcases Nat.lt_trichotomy j w.fetches.length with h | h | h
  · rw [if_neg (Nat.ne_of_lt h)]
    exact List.getElem?_append_left h
  · subst h
    simp [begun]
  · have hlen : (w.begun run p xs b).fetches.length = w.fetches.length + 1 := by simp [begun]
    rw [if_neg (by omega), List.getElem?_eq_none (by omega), List.getElem?_eq_none (by omega)]

theorem ended_fetches_self (hf : w.fetches[i]? = some ⟨run, p⟩) :
    (w.ended i x d b).fetches[i]? = some ⟨run, .ended d⟩ := by
  simp [ended, hf]

theorem ended_fetches_ne {j : Nat} (h : j ≠ i) :
    (w.ended i x d b).fetches[j]? = w.fetches[j]? := by
  simp [ended, Ne.symm h]

attribute [local simp] dealings

/-- Every fetch begins in one of these ways. -/
theorem step_fetch (w : World) (run : Run) (m : Moment) :
    ∃ p xs ds b, Begins w m run p xs ds b ∧ w.step (.fetch run, m) = w.begun run p xs b ∧
      w.dealings (.fetch run, m) = ds.map (Prod.mk w.fetches.length) := by
  have hnew : ∀ p xs b, (w.begun run p xs b).fetches[w.fetches.length]? = some ⟨run, p⟩ :=
    fun p xs b => by rw [begun_fetches, if_pos rfl]
  cases hid : RunId.parse run.id with
  | error fault =>
    obtain ⟨hbad, -⟩ := RunId.parse_eq_error_iff.mp hid
    have hstep : w.step (.fetch run, m) =
        w.begun run (.ended (.unavailable fault.message)) [] w.correlation.breaker := by
      simp [step, ask, hid]
    exact ⟨_, _, _, _, .malformed _ hbad, hstep, by simp [hstep, hnew, hbad]⟩
  | ok id =>
    have htext := RunId.text_of_parse hid
    have hgood : RunId.wellFormed run.id = true := htext ▸ id.valid
    cases hgrant : w.correlation.breaker.admit? m.steady with
    | none =>
      have hstep : w.step (.fetch run, m) =
          w.begun run (.ended circuitOpen) [] w.correlation.breaker := by
        simp [step, ask, hid, hgrant]
      exact ⟨_, _, _, _, .refused hgood hgrant, hstep, by simp [hstep, hnew, hgood]⟩
    | some admitted =>
      obtain ⟨a, b⟩ := admitted
      have hstep : w.step (.fetch run, m) =
          w.begun run (.asking ⟨id, a, m.timer + w.correlation.timeout⟩) [.query id] b := by
        simp [step, ask, hid, hgrant]
      exact ⟨_, _, _, _, .asked id a b htext hgrant, hstep, by simp [hstep, hnew]⟩

theorem step_answered_ok (hf : w.fetches[i]? = some ⟨run, .asking query⟩)
    (evidence : List Evidence) (m : Moment) :
    w.step (.answered i (.ok evidence), m) = w.ended i (.answer (.ok evidence))
      (Evidence.classify run evidence w.correlation.window m.wall)
      (w.correlation.breaker.succeeded query.admission) := by
  simp only [step, hf, answered]

theorem step_answered_error (hf : w.fetches[i]? = some ⟨run, .asking query⟩) (fault : RemoteFault)
    (m : Moment) :
    w.step (.answered i (.error fault), m) = w.ended i (.answer (.error fault)) (failed fault)
      (w.correlation.breaker.failed query.admission m.steady) := by
  simp only [step, hf, answered]

theorem step_expire (hf : w.fetches[i]? = some ⟨run, .asking query⟩)
    (hdue : query.deadline ≤ m.timer) :
    w.step (.expire i, m) = w.ended i .timeout (timedOut w.correlation.timeout)
      (w.correlation.breaker.failed query.admission m.steady) := by
  simp [step, hf, hdue, expired]

/-- Nothing happens, or a fetch ends that asks. -/
def OneEnd (w : World) (e : Event × Moment) : Prop :=
  (w.step e = w ∧ w.dealings e = []) ∨
  ∃ i run query x dealing d b, w.fetches[i]? = some ⟨run, .asking query⟩ ∧
    Ends w e.2 query x dealing b ∧ w.step e = w.ended i x d b ∧ w.dealings e = [(i, dealing)]

theorem oneEnd_answered (w : World) (i : Nat) (answer : Except RemoteFault (List Evidence))
    (m : Moment) : w.OneEnd (.answered i answer, m) := by
  cases hf : w.fetches[i]? with
  | none => exact .inl (by simp [step, hf])
  | some fetch =>
    obtain ⟨run, p⟩ := fetch
    cases p with
    | ended d => exact .inl (by simp [step, hf])
    | asking query =>
      cases answer with
      | ok evidence =>
        exact .inr ⟨i, run, query, _, _, _, _, hf, .answered evidence,
          step_answered_ok hf evidence m, by simp [hf]⟩
      | error fault =>
        exact .inr ⟨i, run, query, _, _, _, _, hf, .failed fault,
          step_answered_error hf fault m, by simp [hf]⟩

theorem oneEnd_expire (w : World) (i : Nat) (m : Moment) : w.OneEnd (.expire i, m) := by
  cases hf : w.fetches[i]? with
  | none => exact .inl (by simp [step, hf])
  | some fetch =>
    obtain ⟨run, p⟩ := fetch
    cases p with
    | ended d => exact .inl (by simp [step, hf])
    | asking query =>
      by_cases hdue : query.deadline ≤ m.timer
      · have hstep := step_expire hf hdue
        exact .inr ⟨i, run, query, _, _, _, _, hf, .expired hdue, hstep,
          by simp [hstep, hf, ended_fetches_self hf]⟩
      · exact .inl (by simp [step, hf, hdue])

/-- What beginnings and ends keep of a world and what was done so far, a step keeps. -/
theorem dealings_induction {P : World → List (Nat × Breaker.Dealing) → Prop}
    (hbegin : ∀ w m run p xs ds b trace, P w trace → Begins w m run p xs ds b →
      P (w.begun run p xs b) (trace ++ ds.map (Prod.mk w.fetches.length)))
    (hend : ∀ w m i run query x dealing d b trace, P w trace →
      w.fetches[i]? = some ⟨run, .asking query⟩ → Ends w m query x dealing b →
      P (w.ended i x d b) (trace ++ [(i, dealing)]))
    {w : World} (h : P w trace) (e : Event × Moment) : P (w.step e) (trace ++ w.dealings e) := by
  have hone : ∀ {e}, w.OneEnd e → P (w.step e) (trace ++ w.dealings e) := by
    rintro e (⟨hs, hd⟩ | ⟨i, run, query, x, dealing, d, b, hf, hends, hs, hd⟩)
    · rw [hs, hd, List.append_nil]
      exact h
    · rw [hs, hd]
      exact hend w e.2 i run query x dealing d b trace h hf hends
  obtain ⟨e, m⟩ := e
  cases e with
  | fetch run =>
    obtain ⟨p, xs, ds, b, hbegins, hs, hd⟩ := step_fetch w run m
    rw [hs, hd]
    exact hbegin w m run p xs ds b trace h hbegins
  | answered i answer => exact hone (oneEnd_answered w i answer m)
  | expire i => exact hone (oneEnd_expire w i m)

/-- What every step keeps, a run keeps. -/
theorem trace_induction {P : World → List (Nat × Breaker.Dealing) → Prop}
    (hstep : ∀ w trace e, P w trace → P (w.step e) (trace ++ w.dealings e)) (h : P w trace)
    (es : List (Event × Moment)) : P (w.play es) (trace ++ w.trace es) := by
  induction es generalizing w trace with
  | nil =>
    rw [World.trace, List.append_nil]
    exact h
  | cons e es ih =>
    rw [World.trace, ← List.append_assoc]
    exact ih (hstep w trace e h)

end World
end Correlation
end AfterAction
