import AfterAction.Proofs.Correlation.World

/-!
# Fetches come to rest and recover

Each fetch gives its admission back once, with success when the store answered in time: with the
answer or with the end of its time, which comes to all fetches by itself. With no fetch under way no
trial is in flight, and a fetch that the breaker has cooled down for asks the
store at once; `Pursued` follows it until its answer closes the breaker.
-/

namespace AfterAction.Correlation

variable {run : Run} {m : Moment} {i : Nat} {p : FetchPhase} {query : DetectionQuery}
  {x : Encounter} {xs : List Encounter} {ds : List Breaker.Dealing} {dealing : Breaker.Dealing}
  {d : Detections} {b : Breaker}

/-- What a fetch has done when it is in a phase. -/
inductive Done (run : Run) : FetchPhase → List Breaker.Dealing → Prop
  | malformed (d : Detections) : RunId.wellFormed run.id = false → Done run (.ended d) []
  | refused (now : Nat) : RunId.wellFormed run.id = true →
      Done run (.ended circuitOpen) [.refused now]
  | asking (query : DetectionQuery) (now : Nat) :
      Done run (.asking query) [.granted query.admission now]
  | succeeded (a : Admission) (now : Nat) (d : Detections) :
      Done run (.ended d) [.granted a now, .succeeded a]
  | failed (a : Admission) (now later : Nat) (d : Detections) :
      Done run (.ended d) [.granted a now, .failed a later]

/-- All that a fetch has done that has ended, if the store answered it in time and if not. -/
inductive Finished (run : Run) (answered : Prop) : List Breaker.Dealing → Prop
  | malformed : RunId.wellFormed run.id = false → ¬ answered → Finished run answered []
  | refused (now : Nat) : ¬ answered → Finished run answered [.refused now]
  | succeeded (a : Admission) (now : Nat) : answered →
      Finished run answered [.granted a now, .succeeded a]
  | failed (a : Admission) (now later : Nat) : ¬ answered →
      Finished run answered [.granted a now, .failed a later]

theorem Done.finished {answered : Prop} (h : Done run (.ended d) ds)
    (hs : (∃ a, .succeeded a ∈ ds) ↔ answered) : Finished run answered ds := by
  cases h with
  | malformed _ hbad => exact .malformed hbad fun ha => by simpa using hs.mpr ha
  | refused now _ => exact .refused now fun ha => by simpa using hs.mpr ha
  | succeeded a now _ => exact .succeeded a now (hs.mp ⟨a, by simp⟩)
  | failed a now later _ => exact .failed a now later fun ha => by simpa using hs.mpr ha

theorem Done.ended {w : World} (h : Done run (.asking query) ds)
    (he : World.Ends w m query x dealing b) (d : Detections) : Done run (.ended d) (ds ++ [dealing]) := by
  cases h with
  | asking query now =>
    cases he with
    | answered evidence => exact .succeeded query.admission now d
    | failed | expired => exact .failed query.admission now m.steady d

namespace World

variable {w : World} {trace : List (Nat × Breaker.Dealing)}

/-! ## What each fetch has done -/

/-- What one fetch has met. -/
def met (w : World) (i : Nat) : List Encounter := ofCall w.log i

/-- Every fetch has done what its phase says, and nobody else has done anything. An admission is
handed back with success when the store answered. -/
structure Told (w : World) (trace : List (Nat × Breaker.Dealing)) : Prop where
  fetch : ∀ i run p, w.fetches[i]? = some ⟨run, p⟩ → Done run p (ofCall trace i)
  none : ∀ i, w.fetches.length ≤ i → ofCall trace i = []
  answered : ∀ i, (∃ a, .succeeded a ∈ ofCall trace i) ↔
    ∃ evidence, .answer (.ok evidence) ∈ w.met i

theorem told_new (timeout window : Nat) (breaker : Breaker) : (new timeout window breaker).Told [] :=
  ⟨fun i run p hf => by simp [new] at hf, fun _ _ => rfl, fun i => by simp [ofCall, met, new]⟩

theorem Told.begun (h : w.Told trace) (hb : Begins w m run p xs ds b) :
    (w.begun run p xs b).Told (trace ++ ds.map (Prod.mk w.fetches.length)) := by
  refine ⟨fun j run' q hf => ?_, fun j hj => ?_, fun j => ?_⟩
  · rw [ofCall_append, ofCall_map]
    rw [begun_fetches] at hf
    split at hf
    · rename_i hj
      cases hf
      rw [if_pos hj.symm, h.none j (Nat.le_of_eq hj.symm)]
      cases hb with
      | malformed d hbad => exact .malformed d hbad
      | refused hgood _ => exact .refused m.steady hgood
      | asked id a b _ _ => exact .asking _ m.steady
    · rename_i hj
      rw [if_neg (Ne.symm hj), List.append_nil]
      exact h.fetch j run' q hf
  · have hlen : (w.begun run p xs b).fetches.length = w.fetches.length + 1 := by
      simp [World.begun]
    rw [ofCall_append, ofCall_map, h.none j (by omega), if_neg (by omega)]
    rfl
  · have hold := h.answered j
    have hmet : (w.begun run p xs b).met j =
        w.met j ++ if w.fetches.length = j then xs else [] := by
      rw [met, World.begun, ofCall_append, ofCall_map]
      rfl
    rw [ofCall_append, ofCall_map, hmet]
    cases hb <;> split <;> simpa using hold

theorem Told.ended (h : w.Told trace) (hf : w.fetches[i]? = some ⟨run, .asking query⟩)
    (he : Ends w m query x dealing b) : (w.ended i x d b).Told (trace ++ [(i, dealing)]) := by
  have hof : ∀ j, ofCall (trace ++ [(i, dealing)]) j =
      ofCall trace j ++ if i = j then [dealing] else [] := fun j => by
    rw [ofCall_append]
    exact congrArg (ofCall trace j ++ ·) (ofCall_map [dealing] i j)
  refine ⟨fun j run' q hq => ?_, fun j hj => ?_, fun j => ?_⟩
  · rw [hof]
    rcases Decidable.em (i = j) with rfl | hne
    · cases (ended_fetches_self hf).symm.trans hq
      rw [if_pos rfl]
      exact (h.fetch i run _ hf).ended he d
    · rw [if_neg hne, List.append_nil]
      exact h.fetch j run' q ((ended_fetches_ne (Ne.symm hne)).symm.trans hq)
  · have hlen : (w.ended i x d b).fetches.length = w.fetches.length := by simp [World.ended]
    have hi := (List.getElem?_eq_some_iff.mp hf).1
    rw [hof, h.none j (by omega), if_neg (by omega)]
    rfl
  · have hold := h.answered j
    have hmet : (w.ended i x d b).met j = w.met j ++ if i = j then [x] else [] := by
      rw [met, World.ended, ofCall_append]
      exact congrArg (ofCall w.log j ++ ·) (ofCall_map [x] i j)
    rw [hof, hmet]
    split
    · cases he with
      | answered evidence => simp
      | failed | expired => simpa using hold
    · simpa using hold

theorem Told.play (h : w.Told trace) (es : List (Event × Moment)) :
    (w.play es).Told (trace ++ w.trace es) :=
  trace_induction (P := Told)
    (fun _ _ e h => dealings_induction (P := Told) (fun _ _ _ _ _ _ _ _ h hb => h.begun hb)
      (fun _ _ _ _ _ _ _ _ _ _ h hf he => h.ended hf he) h e) h es

/-! ## What becomes of the breaker -/

/-- The admissions of fetches that ask. -/
def out (w : World) : List Admission := w.fetches.filterMap (·.phase.admission?)

/-- The breaker is what the dealings made of the one at the beginning, and a sound one for the
fetches that ask. -/
structure Kept (threshold : Nat) (start : Breaker) (w : World)
    (trace : List (Nat × Breaker.Dealing)) : Prop where
  exact : start.replay? (trace.map (·.2)) = some w.correlation.breaker
  lends : Breaker.Lends threshold w.correlation.breaker w.out

variable {threshold : Nat} {start : Breaker}

theorem Kept.begun (h : w.Kept threshold start trace) (hb : Begins w m run p xs ds b) :
    (w.begun run p xs b).Kept threshold start (trace ++ ds.map (Prod.mk w.fetches.length)) := by
  have hturn : w.correlation.breaker.replay? ds = some b ∧ Breaker.Turn ds none p.admission? := by
    cases hb with
    | malformed d _ => exact ⟨rfl, .idle _⟩
    | refused _ hgrant =>
      exact ⟨(Breaker.replay?_singleton _ _).trans (Breaker.deal?_refused hgrant), .refused _⟩
    | asked id a b _ hgrant =>
      exact ⟨(Breaker.replay?_singleton _ _).trans (Breaker.deal?_granted hgrant), .granted _ _⟩
  have hout : (w.begun run p xs b).out = w.out ++ p.admission?.toList := by
    simp only [out, World.begun, List.filterMap_append, List.filterMap_cons, List.filterMap_nil]
    cases p.admission? <;> rfl
  refine ⟨?_, ?_⟩
  · rw [List.map_append, List.map_map]
    exact Breaker.replay?_append h.exact (hturn.1 ▸ congrArg _ (List.map_id ds))
  · rw [hout]
    have hlends : Breaker.Lends threshold b (p.admission?.toList ++ w.out) :=
      Breaker.Lends.turn h.lends hturn.1 hturn.2
    exact hlends.perm List.perm_append_comm

theorem Kept.ended (h : w.Kept threshold start trace)
    (hf : w.fetches[i]? = some ⟨run, .asking query⟩) (he : Ends w m query x dealing b) :
    (w.ended i x d b).Kept threshold start (trace ++ [(i, dealing)]) := by
  have hturn : w.correlation.breaker.replay? [dealing] = some b ∧
      Breaker.Turn [dealing] (some query.admission) none := by
    cases he with
    | answered => exact ⟨Breaker.replay?_singleton _ _, .succeeded _⟩
    | failed | expired => exact ⟨Breaker.replay?_singleton _ _, .failed _ _⟩
  refine ⟨?_, ?_⟩
  · rw [List.map_append]
    exact Breaker.replay?_append h.exact hturn.1
  · exact h.lends.modify hf hturn.1 hturn.2

theorem Kept.play (h : w.Kept threshold start trace) (es : List (Event × Moment)) :
    (w.play es).Kept threshold start (trace ++ w.trace es) :=
  trace_induction (P := Kept threshold start)
    (fun _ _ e h => dealings_induction (P := Kept threshold start)
      (fun _ _ _ _ _ _ _ _ h hb => h.begun hb)
      (fun _ _ _ _ _ _ _ _ _ _ h hf he => h.ended hf he) h e) h es

/-! ## A fetch from rest -/

/-- All fetches have ended. -/
def Quiet (w : World) : Prop :=
  ∀ (i : Nat) (run : Run) (p : FetchPhase), w.fetches[i]? = some ⟨run, p⟩ → ∃ d, p = .ended d

/-- At rest no admission is out, and only then. -/
theorem quiet_iff : w.Quiet ↔ w.out = [] := by
  rw [out, List.filterMap_eq_nil_iff]
  constructor
  · intro h fetch hfetch
    obtain ⟨i, hi⟩ := List.mem_iff_getElem?.mp hfetch
    obtain ⟨d, hp⟩ := h i fetch.run fetch.phase hi
    rw [hp]
    rfl
  · intro h i run p hf
    have hnone := h _ (List.mem_of_getElem? hf)
    cases p with
    | asking query => cases hnone
    | ended d => exact ⟨d, rfl⟩

instance : Decidable w.Quiet := decidable_of_iff' _ quiet_iff

/-- The fetch at place `n` was admitted to a breaker that is `b` since. As long as it asks, and no
other fetch can get an admission, it is the only one that asks and the breaker stays as it is. -/
structure Pursued (n : Nat) (a : Admission) (b : Breaker) (w : World) : Prop where
  begun : n < w.fetches.length
  alone : w.fetches.length = n + 1 ∨ (∀ now, b.admit? now = none) →
    ∀ run query, w.fetches[n]? = some ⟨run, .asking query⟩ →
      query.admission = a ∧ w.correlation.breaker = b ∧
      ∀ j run' p, j ≠ n → w.fetches[j]? = some ⟨run', p⟩ → p.admission? = none

variable {n : Nat} {a : Admission} {b' : Breaker}

theorem Pursued.other_begun (h : w.Pursued n a b) (hb : Begins w m run p xs ds b') :
    (w.begun run p xs b').Pursued n a b := by
  have hlen : (w.begun run p xs b').fetches.length = w.fetches.length + 1 := by simp [World.begun]
  have hlt := h.begun
  refine ⟨by omega, fun hlone run' query hq => ?_⟩
  have hrefuses : ∀ now, b.admit? now = none := hlone.resolve_left (by omega)
  rw [begun_fetches, if_neg (Nat.ne_of_lt h.begun)] at hq
  obtain ⟨hadm, hbreaker, hothers⟩ := h.alone (.inr hrefuses) run' query hq
  have hnew : b' = w.correlation.breaker ∧ p.admission? = none := by
    cases hb with
    | malformed | refused => exact ⟨rfl, rfl⟩
    | asked id a' b' _ hgrant =>
      rw [hbreaker, hrefuses] at hgrant
      cases hgrant
  refine ⟨hadm, hnew.1.trans hbreaker, fun j run'' q hj hq' => ?_⟩
  rw [begun_fetches] at hq'
  split at hq'
  · cases hq'
    exact hnew.2
  · exact hothers j run'' q hj hq'

theorem Pursued.some_ended (h : w.Pursued n a b)
    (hf : w.fetches[i]? = some ⟨run, .asking query⟩) :
    (w.ended i x d b').Pursued n a b := by
  have hlen : (w.ended i x d b').fetches.length = w.fetches.length := by simp [World.ended]
  refine ⟨hlen ▸ h.begun, fun hlone run' query' hq => ?_⟩
  rcases Decidable.em (n = i) with rfl | hne
  · cases (ended_fetches_self hf).symm.trans hq
  · -- another fetch asks, so `n` was not alone before
    obtain ⟨-, -, hothers⟩ := h.alone (hlen ▸ hlone) run' query' ((ended_fetches_ne hne).symm.trans hq)
    cases hothers i run _ (Ne.symm hne) hf

theorem Pursued.play (h : w.Pursued n a b) (es : List (Event × Moment)) :
    (w.play es).Pursued n a b := by
  let P : World → List (Nat × Breaker.Dealing) → Prop := fun w _ => w.Pursued n a b
  have hrun : P (w.play es) ([] ++ w.trace es) := by
    refine trace_induction (fun w trace e h => ?_) h es
    have hstep : P (w.step e) (trace ++ w.dealings e) :=
      dealings_induction (fun _ _ _ _ _ _ _ _ h hb => h.other_begun hb)
        (fun _ _ _ _ _ _ _ _ _ _ h hf _ => h.some_ended hf) h e
    exact hstep
  exact hrun

/-- A fetch that begins at rest is pursued from the start. -/
theorem Quiet.pursued (h : w.Quiet) (query : DetectionQuery) (ha : query.admission = a) :
    (w.begun run (.asking query) xs b).Pursued w.fetches.length a b := by
  refine ⟨by simp [World.begun], fun _ run' query' hq => ?_⟩
  rw [begun_fetches, if_pos rfl] at hq
  cases hq
  refine ⟨ha, rfl, fun j run'' p hj hp => ?_⟩
  rw [begun_fetches, if_neg hj] at hp
  obtain ⟨d, rfl⟩ := h j run'' p hp
  rfl

/-- A fetch for the run asks the store at once. When the store answers, the breaker is closed and
counts nothing: if the breaker was open, whatever happens in between, and if not, as long as no other
fetch has begun by then. -/
def Reaches (w : World) (run : Run) (m : Moment) : Prop :=
  let n := w.fetches.length
  ∃ query, query.runId.text = run.id ∧
    (w.step (.fetch run, m)).fetches[n]? = some ⟨run, .asking query⟩ ∧
    .query query.runId ∈ (w.step (.fetch run, m)).met n ∧
    ∀ es, let after := (w.step (.fetch run, m)).play es
      (w.correlation.breaker.isOpen = true ∨ after.fetches.length = n + 1) →
      ∀ run' query', after.fetches[n]? = some ⟨run', .asking query'⟩ →
      ∀ evidence m', let done := after.step (.answered n (.ok evidence), m')
        done.correlation.breaker.isOpen = false ∧ done.correlation.breaker.failures = 0

theorem Quiet.reaches (h : w.Quiet) (hflight : w.correlation.breaker.trialInFlight = false)
    (hrun : RunId.wellFormed run.id = true) (hcool : w.correlation.breaker.Cooled m.steady) :
    w.Reaches run m := by
  obtain ⟨a, b, hgrant⟩ := Breaker.admit?_of_cooled hflight hcool
  obtain ⟨p, xs, ds, b', hbegins, hstep, -⟩ := step_fetch w run m
  cases hbegins with
  | malformed d hbad =>
    rw [hrun] at hbad
    cases hbad
  | refused _ hrefused => cases hrefused.symm.trans hgrant
  | asked runId a' b' htext hgrant' =>
    cases hgrant.symm.trans hgrant'
    refine ⟨⟨runId, a, m.timer + w.correlation.timeout⟩, htext, ?_, ?_, ?_⟩
    · rw [hstep, begun_fetches, if_pos rfl]
    · rw [hstep, met, World.begun, ofCall_append, ofCall_map, if_pos rfl]
      exact List.mem_append_right _ List.mem_cons_self
    · intro es after hlone run' query' hf evidence m'
      have hpursued : after.Pursued w.fetches.length a b := by
        have hstart : (w.step (.fetch run, m)).Pursued w.fetches.length a b := by
          rw [hstep]
          exact h.pursued _ rfl
        exact hstart.play es
      have hlone' : after.fetches.length = w.fetches.length + 1 ∨ ∀ now, b.admit? now = none :=
        hlone.symm.imp id fun hopen now => Breaker.admit?_of_trial hgrant hopen now
      obtain ⟨ha, hb, -⟩ := hpursued.alone hlone' run' query' hf
      have hdone : (after.step (.answered w.fetches.length (.ok evidence), m')).correlation.breaker =
          after.correlation.breaker.succeeded query'.admission := by
        rw [step_answered_ok hf, World.ended]
      intro done
      have hbreaker : done.correlation.breaker = b.succeeded a := by rw [hdone, ha, hb]
      rw [hbreaker]
      exact Breaker.succeeded_of_admit? hgrant

/-! ## Handing back -/

/-- In a step to `w'` the fetch at place `i` has got its detections, and the breaker is `b`. -/
structure Leaves (run : Run) (i : Nat) (d : Detections) (b : Breaker) (w' : World) : Prop where
  fetch : w'.fetches[i]? = some ⟨run, .ended d⟩
  breaker : w'.correlation.breaker = b

/-- How the fetch at place `i` hands back its admission. -/
structure HandsBack (w : World) (i : Nat) : Prop where
  answered : ∀ run query evidence m, w.fetches[i]? = some ⟨run, .asking query⟩ →
    Leaves run i (Evidence.classify run evidence w.correlation.window m.wall)
      (w.correlation.breaker.succeeded query.admission) (w.step (.answered i (.ok evidence), m))
  failed : ∀ run query fault m, w.fetches[i]? = some ⟨run, .asking query⟩ →
    Leaves run i (failed fault) (w.correlation.breaker.failed query.admission m.steady)
      (w.step (.answered i (.error fault), m))
  expired : ∀ run query m, w.fetches[i]? = some ⟨run, .asking query⟩ → query.deadline ≤ m.timer →
    Leaves run i (timedOut w.correlation.timeout)
      (w.correlation.breaker.failed query.admission m.steady) (w.step (.expire i, m))

theorem handsBack (w : World) (i : Nat) : w.HandsBack i where
  answered run query evidence m hf := by
    rw [step_answered_ok hf]
    exact ⟨ended_fetches_self hf, rfl⟩
  failed run query fault m hf := by
    rw [step_answered_error hf]
    exact ⟨ended_fetches_self hf, rfl⟩
  expired run query m hf hdue := by
    rw [step_expire hf hdue]
    exact ⟨ended_fetches_self hf, rfl⟩

/-- A fetch that has its detections asks no more, so fewer do. -/
theorem length_out_ended (hf : w.fetches[i]? = some ⟨run, .asking query⟩) :
    (w.ended i x d b).out.length < w.out.length := by
  obtain ⟨rest, hbefore, hafter⟩ :=
    Breaker.filterMap_modify (fun fetch : Fetch => fetch.phase.admission?) hf
  have hasked : w.out.length = rest.length + 1 := hbefore.length_eq
  have hleft : (w.ended i x d b).out.length = rest.length :=
    (hafter fun fetch => { fetch with phase := .ended d }).length_eq
  omega

/-- Ends of fetches' times, in order and not before `t`. -/
structure OwnRun (t : Nat) (es : List (Event × Moment)) : Prop where
  own : ∀ e ∈ es, ∃ i, e.1 = .expire i
  later : ∀ e ∈ es, t ≤ e.2.timer
  inOrder : es.Pairwise fun e e' => e.2.timer ≤ e'.2.timer

/-- **Time alone brings all fetches to their ends.** -/
theorem rests (w : World) (t : Nat) : ∃ es, OwnRun t es ∧ (w.play es).Quiet := by
  induction hn : w.out.length using Nat.strongRecOn generalizing w t with
  | ind n ih =>
    by_cases hq : w.Quiet
    · exact ⟨[], ⟨nofun, nofun, .nil⟩, hq⟩
    · obtain ⟨i, run, query, hf⟩ : ∃ (i : Nat) (run : Run) (query : DetectionQuery),
          w.fetches[i]? = some ⟨run, .asking query⟩ := by
        by_contra hnone
        refine hq fun i run p hf => ?_
        cases p with
        | asking query => exact absurd ⟨i, run, query, hf⟩ hnone
        | ended d => exact ⟨d, rfl⟩
      let m : Moment := ⟨⟨0, 0, 0⟩, 0, max t query.deadline⟩
      have hless : (w.step (.expire i, m)).out.length < w.out.length := by
        rw [step_expire hf (Nat.le_max_right ..)]
        exact length_out_ended hf
      obtain ⟨es, hes, hrest⟩ := ih _ (hn ▸ hless) (w.step (.expire i, m)) m.timer rfl
      refine ⟨(.expire i, m) :: es, ⟨?_, ?_, ?_⟩, hrest⟩
      · exact List.forall_mem_cons.mpr ⟨⟨i, rfl⟩, hes.own⟩
      · exact List.forall_mem_cons.mpr ⟨Nat.le_max_left .., fun e' he' =>
          Nat.le_trans (Nat.le_max_left ..) (hes.later e' he')⟩
      · exact List.pairwise_cons.mpr ⟨hes.later, hes.inOrder⟩

/-! ## Rest and recovery -/

/-- What holds of a correlation's breaker and fetches after a run, for what was done in it. -/
structure Unwedged (threshold cooldown : Nat) (w : World)
    (trace : List (Nat × Breaker.Dealing)) : Prop where
  /-- What the fetches did led from the first breaker to that of now. -/
  exact : (Breaker.new threshold cooldown).replay? (trace.map (·.2)) = some w.correlation.breaker
  finished : ∀ i run d, w.fetches[i]? = some ⟨run, .ended d⟩ →
    Finished run (∃ evidence, .answer (.ok evidence) ∈ w.met i) (ofCall trace i)
  handsBack : ∀ i, w.HandsBack i
  /-- From any time on, time alone brings all fetches to their ends. -/
  rests : ∀ t, ∃ es, OwnRun t es ∧ (w.play es).Quiet
  quiet : w.Quiet → w.correlation.breaker.trialInFlight = false
  reaches : w.Quiet → ∀ run m, RunId.wellFormed run.id = true →
    (∀ last, Breaker.lastFailed? (trace.map (·.2)) = some last → last + cooldown ≤ m.steady) →
    w.Reaches run m

/-- Every run of a new correlation leaves it able to go on. -/
theorem unwedged_play (timeout window threshold cooldown : Nat) (es : List (Event × Moment)) :
    let w := new timeout window (Breaker.new threshold cooldown)
    (w.play es).Unwedged threshold cooldown (w.trace es) := by
  intro w
  have htold : (w.play es).Told (w.trace es) :=
    (told_new timeout window (Breaker.new threshold cooldown)).play es
  have hkept : (w.play es).Kept threshold (Breaker.new threshold cooldown) (w.trace es) := by
    have hnew : w.Kept threshold (Breaker.new threshold cooldown) [] :=
      ⟨rfl, Breaker.lends_new threshold cooldown⟩
    exact hnew.play es
  have hflight : (w.play es).Quiet → (w.play es).correlation.breaker.trialInFlight = false := by
    intro hq
    have hlends := hkept.lends
    rw [quiet_iff.mp hq] at hlends
    exact hlends.quiet
  refine ⟨hkept.exact, fun i run d hf => ?_, (w.play es).handsBack, (w.play es).rests, hflight,
    fun hq run m hrun hlast => ?_⟩
  · exact (htold.fetch i run _ hf).finished (htold.answered i)
  · exact hq.reaches (hflight hq) hrun (Breaker.cooled_of_replay? hkept.exact hlast)

end World
end AfterAction.Correlation
