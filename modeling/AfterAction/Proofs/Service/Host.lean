import AfterAction.Proofs.Service.System
import AfterAction.Proofs.Service.World

/-!
# The service from its start to its shutdown

`Host` is a service with the stage its shutdown has reached and with notes of what cannot be read
off the service any more. Events, requests and answers come in at any time and in any order, while
the host shuts down too. It shuts down in stages and looks after the events first: their group is
closed, a drain takes their tasks over and waits for the last of them, and only then is it the turn
of the reports.

All that the report jobs see of a step is one event of theirs, or none (`reports_step`), and the
same holds of the tag calls (`tagging_step`).
-/

namespace AfterAction.Service

variable {σ : Type}

/-! ## What an answered task does -/

/-- The run that an event's task is given when the engine answers. -/
def given? (s : Service σ) (i : Nat) (answer : Except RemoteFault Run) : Option Run :=
  match s.events[i]?, answer with
  | some ⟨_, _, .fetching⟩, .ok run => some run
  | _, _ => none

/-- The run for whose report an event's task asks when the engine answers. -/
def asked? (s : Service σ) (i : Nat) (answer : Except RemoteFault Run) : Option Run :=
  match s.events[i]?, answer with
  | some ⟨_, true, .fetching⟩, .ok run => some run
  | _, _ => none

/-- The registry after the request that an answered task makes, if it makes one. -/
def registryAfter (s : Service σ) (i : Nat) (answer : Except RemoteFault Run) (id : JobId)
    (m : Moment) : Registry :=
  match s.asked? i answer with
  | some run => (s.registry.request run id m).2
  | none => s.registry

/-- What the engine's answer makes of the service. -/
inductive Answered (s : Service σ) (i : Nat) (answer : Except RemoteFault Run) (id : JobId)
    (m : Moment) : Service σ → Prop
  /-- No task waits for the answer. -/
  | ignored : (∀ runId wantsReport, s.events[i]? ≠ some ⟨runId, wantsReport, .fetching⟩) →
      Answered s i answer id m s
  /-- The run cannot be had. -/
  | dropped (runId : RunId) (wantsReport : Bool) (fault : RemoteFault) :
      s.events[i]? = some ⟨runId, wantsReport, .fetching⟩ → answer = .error fault →
      Answered s i answer id m (s.setEvent i .ended)
  /-- The run has a malformed id. -/
  | misnamed (runId : RunId) (wantsReport : Bool) (run : Run) (fault : InvalidRunId) :
      s.events[i]? = some ⟨runId, wantsReport, .fetching⟩ → answer = .ok run →
      s.tagging.start run m = .error fault →
      Answered s i answer id m
        ({ s with registry := s.registryAfter i answer id m }.setEvent i .ended)
  /-- The run is tagged. -/
  | tagged (runId : RunId) (wantsReport : Bool) (run : Run) (call : Nat) (tagging : Tagging) :
      s.events[i]? = some ⟨runId, wantsReport, .fetching⟩ → answer = .ok run →
      s.tagging.start run m = .ok (call, tagging) →
      Answered s i answer id m
        ({ s with tagging, registry := s.registryAfter i answer id m }.setEvent i (.tagging call))

theorem registryAfter_eq {s : Service σ} {i : Nat} {runId : RunId} {wantsReport : Bool}
    (hi : s.events[i]? = some ⟨runId, wantsReport, .fetching⟩) (run : Run) (id : JobId)
    (m : Moment) : s.registryAfter i (.ok run) id m =
      if wantsReport then (s.registry.request run id m).2 else s.registry := by
  cases wantsReport <;> simp [registryAfter, asked?, hi]

theorem fetched_answered (s : Service σ) (i : Nat) (answer : Except RemoteFault Run) (id : JobId)
    (m : Moment) : Answered s i answer id m (s.fetched i answer id m) := by
  have hignored : (∀ runId wantsReport, s.events[i]? ≠ some ⟨runId, wantsReport, .fetching⟩) →
      s.fetched i answer id m = s → Answered s i answer id m (s.fetched i answer id m) :=
    fun hno hs => by
      rw [hs]
      exact .ignored hno
  cases hi : s.events[i]? with
  | none => exact hignored (fun _ _ => by rw [hi]; nofun) (by unfold fetched; rw [hi])
  | some task =>
    obtain ⟨runId, wantsReport, phase⟩ := task
    cases phase with
    | tagging | ended => exact hignored (fun _ _ => by rw [hi]; nofun) (by unfold fetched; rw [hi])
    | fetching =>
      cases answer with
      | error fault =>
        have hs : s.fetched i (.error fault) id m = s.setEvent i .ended := by
          unfold fetched
          rw [hi]
        rw [hs]
        exact .dropped runId wantsReport fault hi rfl
      | ok run =>
        have hreported : ∀ tagging, (if wantsReport then
            (({ s with tagging } : Service σ).requestReport run id m).2 else { s with tagging }) =
            { s with tagging, registry := s.registryAfter i (.ok run) id m } := fun tagging => by
          rw [registryAfter_eq hi]
          cases wantsReport <;> rfl
        cases hs : s.tagging.start run m with
        | error fault =>
          have hf : s.fetched i (.ok run) id m =
              { s with registry := s.registryAfter i (.ok run) id m }.setEvent i .ended := by
            unfold fetched
            rw [hi]
            simp only [startTag, hs]
            exact congrArg (·.setEvent i .ended) (hreported s.tagging)
          rw [hf]
          exact .misnamed runId wantsReport run fault hi rfl hs
        | ok begun =>
          obtain ⟨call, tagging⟩ := begun
          have hf : s.fetched i (.ok run) id m =
              { s with tagging, registry := s.registryAfter i (.ok run) id m }.setEvent i
                (.tagging call) := by
            unfold fetched
            rw [hi]
            simp only [startTag, hs]
            exact congrArg (·.setEvent i (.tagging call)) (hreported tagging)
          rw [hf]
          exact .tagged runId wantsReport run call tagging hi rfl hs

theorem asked?_eq_some {s : Service σ} {i : Nat} {answer : Except RemoteFault Run} {run : Run}
    (h : s.asked? i answer = some run) :
    ∃ runId, s.events[i]? = some ⟨runId, true, .fetching⟩ ∧ answer = .ok run := by
  unfold asked? at h
  split at h
  · rename_i runId run' hi
    cases h
    exact ⟨runId, hi, rfl⟩
  · cases h

theorem given?_eq_some {s : Service σ} {i : Nat} {answer : Except RemoteFault Run} {run : Run}
    (h : s.given? i answer = some run) : ∃ runId wantsReport,
      s.events[i]? = some ⟨runId, wantsReport, .fetching⟩ ∧ answer = .ok run := by
  unfold given? at h
  split at h
  · rename_i runId wantsReport run' hi
    cases h
    exact ⟨runId, wantsReport, hi, rfl⟩
  · cases h

theorem given?_of_fetching {s : Service σ} {i : Nat} {runId : RunId} {wantsReport : Bool}
    (hi : s.events[i]? = some ⟨runId, wantsReport, .fetching⟩) (run : Run) :
    s.given? i (.ok run) = some run := by
  simp [given?, hi]

/-- What the tag calls see of an answered task is the call that it begins. -/
theorem fetched_calls [FileStore σ] (s : Service σ) (i : Nat) (answer : Except RemoteFault Run)
    (id : JobId) (m : Moment) : (s.fetched i answer id m).tagging =
      match s.given? i answer with
      | some run => (s.tags.step (.start run, m)).client
      | none => s.tagging := by
  have hsame : (∀ run, s.given? i answer ≠ some run) → s.given? i answer = none :=
    Option.eq_none_iff_forall_ne_some.mpr
  obtain ⟨s', hs⟩ : ∃ s', s.fetched i answer id m = s' := ⟨_, rfl⟩
  have hanswered := s.fetched_answered i answer id m
  rw [hs] at hanswered ⊢
  cases hanswered with
  | ignored hno =>
    rw [hsame fun run hg => ?_]
    obtain ⟨runId, wantsReport, hi, -⟩ := given?_eq_some hg
    exact hno runId wantsReport hi
  | dropped runId wantsReport fault hi he =>
    rw [hsame fun run hg => ?_]
    · rfl
    · obtain ⟨_, _, _, hok⟩ := given?_eq_some hg
      cases he.symm.trans hok
  | misnamed runId wantsReport run fault hi hok hstart =>
    subst hok
    rw [given?_of_fetching hi]
    simp [Tagging.World.step, Tagging.World.happen, tags, hstart, setEvent]
  | tagged runId wantsReport run call tagging hi hok hstart =>
    subst hok
    rw [given?_of_fetching hi]
    simp [Tagging.World.step, Tagging.World.happen, tags, hstart, setEvent]

/-- What the reports see of an answered task is the request that it makes. -/
theorem fetched_reports (s : Service σ) (i : Nat) (answer : Except RemoteFault Run) (id : JobId)
    (m : Moment) : (s.fetched i answer id m).registry = s.registryAfter i answer id m ∧
      (s.fetched i answer id m).correlation = s.correlation ∧
      (s.fetched i answer id m).files = s.files := by
  have hsame : (∀ run, s.asked? i answer ≠ some run) → s.registryAfter i answer id m = s.registry :=
    fun hno => by rw [registryAfter, Option.eq_none_iff_forall_ne_some.mpr hno]
  obtain ⟨s', hs⟩ : ∃ s', s.fetched i answer id m = s' := ⟨_, rfl⟩
  have hanswered := s.fetched_answered i answer id m
  rw [hs] at hanswered ⊢
  cases hanswered with
  | ignored hno =>
    refine ⟨(hsame fun run ha => ?_).symm, rfl, rfl⟩
    obtain ⟨runId, hi, -⟩ := asked?_eq_some ha
    exact hno runId true hi
  | dropped runId wantsReport fault _ he =>
    refine ⟨(hsame fun run ha => ?_).symm, rfl, rfl⟩
    obtain ⟨_, _, hok⟩ := asked?_eq_some ha
    cases he.symm.trans hok
  | misnamed | tagged => exact ⟨rfl, rfl, rfl⟩

/-- An event that is taken in gets a task, and that is all. -/
theorem dispatch_same (s : Service σ) (event : LifecycleEvent) :
    ∃ events eventGroup, (s.dispatch event).2 = { s with events, eventGroup } := by
  have hspawn : ∀ runId wantsReport, ∃ events eventGroup,
      (s.spawn runId wantsReport).2 = { s with events, eventGroup } := by
    intro runId wantsReport
    unfold spawn
    split
    · exact ⟨s.events, s.eventGroup, rfl⟩
    · exact ⟨_, _, rfl⟩
  unfold dispatch
  split
  · exact ⟨s.events, s.eventGroup, rfl⟩
  · split
    · exact ⟨s.events, s.eventGroup, rfl⟩
    · exact hspawn _ false
    · exact hspawn _ true

theorem startTag_same (s : Service σ) (run : Run) (m : Moment) :
    ∃ tagging, (s.startTag run m).2 = { s with tagging } := by
  unfold startTag
  split
  · exact ⟨_, rfl⟩
  · exact ⟨s.tagging, rfl⟩

/-! ## The host -/

/-- How far the shutdown has come. A drain has the tasks that it took over. -/
inductive Stage
  | serving
  | eventsClosed
  | drainingEvents (taken : List Nat)
  | eventsDrained
  | reportsClosed
  | drainingReports (taken : List Nat)
  | down
  deriving DecidableEq

/-- The next step of the shutdown. A drain goes on once all its tasks have ended. -/
def shutDown (s : Service σ) : Stage → Service σ × Stage
  | .serving => (s.closeEvents, .eventsClosed)
  | .eventsClosed => (s.drainEvents, .drainingEvents s.eventGroup.members)
  | .drainingEvents taken =>
    (s, if TaskGroup.drained s.eventEnded taken then .eventsDrained else .drainingEvents taken)
  | .eventsDrained => (s.closeReports, .reportsClosed)
  | .reportsClosed => (s.drainReports, .drainingReports s.registry.group.members)
  | .drainingReports taken =>
    (s, if TaskGroup.drained s.registry.isEnded taken then .down else .drainingReports taken)
  | .down => (s, .down)

/-- A shutdown is about the groups and nothing else. -/
theorem shutDown_same (s : Service σ) (stage : Stage) :
    ∃ eventGroup group, (s.shutDown stage).1 =
      { s with eventGroup, registry := { s.registry with group } } := by
  cases stage with
  | _ => exact ⟨_, _, rfl⟩

structure Host (σ : Type) where
  service : Service σ
  stage : Stage
  /-- The events that were taken in, in order. -/
  accepted : List LifecycleEvent
  /-- What the tasks of events were answered when they asked for their reports. -/
  answers : List (Except ReportFault Nat)
  /-- The documents that the store acknowledged, the latest first. -/
  acknowledged : List TagDocument
  /-- What is noted of the report jobs. -/
  log : List (Nat × Registry.Happening)

namespace Host

/-- What can happen. Tasks, calls and jobs are known by their places. -/
inductive Event (σ : Type)
  | dispatch (event : LifecycleEvent)
  /-- The engine answers an event's task. A new report job gets the identifier. -/
  | fetched (i : Nat) (answer : Except RemoteFault Run) (id : JobId)
  | tag (run : Run)
  | requestReport (run : Run) (id : JobId)
  | requestPartial (run : Run) (id : JobId)
  | call (i : Nat) (step : CallStep)
  | job (i : Nat) (step : JobStep)
  /-- The host goes on with its shutdown. -/
  | shutDown
  /-- Somebody else asks for detections or uses the files. -/
  | elsewhere (change : Option Correlation × σ → Option Correlation × σ)

def new (tagging : TagSettings) (breaker : Breaker) (correlation : Option Correlation)
    (reports : ReportSettings) (files : σ) : Host σ where
  service := .new (.new tagging breaker) correlation (.new reports) files
  stage := .serving
  accepted := []
  answers := []
  acknowledged := []
  log := []

/-- The report jobs with what they ask and write and with what is noted of them. -/
def reports (w : Host σ) : Registry.World σ :=
  ⟨w.service.registry, w.service.correlation, w.service.files, w.log⟩

/-- What an event is for the report jobs. -/
def jobEvent? (w : Host σ) : Event σ → Option (Registry.Event σ)
  | .fetched i answer id => (w.service.asked? i answer).map (.request · id)
  | .requestReport run id => some (.request run id)
  | .requestPartial run id => some (.requestPartial run id)
  | .job i step => some (step.event i)
  | .shutDown =>
    match w.stage with
    | .eventsDrained => some .close
    | .reportsClosed => some .drain
    | _ => none
  | _ => none

/-- What an event is for the tag calls. -/
def callEvent? (w : Host σ) : Event σ → Option (Tagging.Event σ)
  | .fetched i answer _ => (w.service.given? i answer).map .start
  | .tag run => some (.start run)
  | .call i step => some (step.event i)
  | _ => none

def accepts (s : Service σ) : Event σ → Option LifecycleEvent
  | .dispatch event =>
    match (s.dispatch event).1 with
    | .ok () => some event
    | .error _ => none
  | _ => none

/-- The answer to an event's task that asks for its report. -/
def answer? (s : Service σ) (m : Moment) : Event σ → Option (Except ReportFault Nat)
  | .fetched i answer id => (s.asked? i answer).map fun run => (s.requestReport run id m).1
  | _ => none

/-- The document that the store acknowledges: that of a call whose write is under way. -/
def receipt? (s : Service σ) : Event σ → Option TagDocument
  | .call i (.answered (.ok _)) =>
    match s.tagging.calls[i]? with
    | some ⟨document, .writing _⟩ => some document
    | _ => none
  | _ => none

variable [FileStore σ]

def serve (w : Host σ) (m : Moment) : Event σ → Service σ
  | .dispatch event => (w.service.dispatch event).2
  | .fetched i answer id => w.service.fetched i answer id m
  | .tag run => (w.service.startTag run m).2
  | .requestReport run id => (w.service.requestReport run id m).2
  | .requestPartial run id => (w.service.requestPartial run id m).2
  | .call i step => w.service.callStep i m step
  | .job i step => w.service.jobStep i m step
  | .shutDown => (w.service.shutDown w.stage).1
  | .elsewhere change =>
    let (correlation, files) := change (w.service.correlation, w.service.files)
    { w.service with correlation, files }

def step (w : Host σ) (e : Event σ × Moment) : Host σ where
  service := w.serve e.2 e.1
  stage :=
    match e.1 with
    | .shutDown => (w.service.shutDown w.stage).2
    | _ => w.stage
  accepted := w.accepted ++ (accepts w.service e.1).toList
  answers := w.answers ++ (answer? w.service e.2 e.1).toList
  acknowledged := (receipt? w.service e.1).toList ++ w.acknowledged
  log := w.log ++ ((w.jobEvent? e.1).bind (w.reports.happening? e.2)).toList

def play (w : Host σ) (es : List (Event σ × Moment)) : Host σ := es.foldl step w

/-- What every step of a run keeps, the run keeps. -/
theorem play_induction {P : Host σ → Prop} (hstep : ∀ w e, P w → P (w.step e)) {w : Host σ}
    (h : P w) (es : List (Event σ × Moment)) : P (w.play es) := by
  induction es generalizing w with
  | nil => exact h
  | cons e es ih => exact ih (hstep w e h)

/-! ## What the parts see of a step -/

/-- The report jobs see one event of theirs, or only that others use the files and ask for
detections. -/
theorem reports_step (w : Host σ) (e : Event σ × Moment) :
    (∃ e', w.jobEvent? e.1 = some e' ∧ (w.step e).reports = w.reports.step (e', e.2)) ∨
    (w.jobEvent? e.1 = none ∧ ∃ correlation files,
      (w.step e).reports = { w.reports with correlation, files }) := by
  obtain ⟨e, m⟩ := e
  have hnone : w.jobEvent? e = none → (w.serve m e).registry = w.service.registry →
      (w.jobEvent? e = none ∧ ∃ correlation files,
        (w.step (e, m)).reports = { w.reports with correlation, files }) := fun hn hr =>
    ⟨hn, (w.serve m e).correlation, (w.serve m e).files, by simp [reports, Host.step, hr, hn]⟩
  cases e with
  | dispatch event =>
    obtain ⟨events, eventGroup, hs⟩ := w.service.dispatch_same event
    exact .inr (hnone rfl (by rw [serve, hs]))
  | fetched i answer id =>
    obtain ⟨hr, hc, hf⟩ := w.service.fetched_reports i answer id m
    cases ha : w.service.asked? i answer with
    | none =>
      refine .inr (hnone (by rw [jobEvent?, ha]; rfl) (hr.trans ?_))
      rw [registryAfter, ha]
    | some run =>
      rw [registryAfter, ha] at hr
      refine .inl ⟨.request run id, by rw [jobEvent?, ha]; rfl, ?_⟩
      simp [reports, Host.step, serve, jobEvent?, ha, hr, hc, hf, Registry.World.step,
        Registry.World.happen]
  | tag run =>
    obtain ⟨tagging, hs⟩ := w.service.startTag_same run m
    exact .inr (hnone rfl (by rw [serve, hs]))
  | requestReport run id => exact .inl ⟨_, rfl, rfl⟩
  | requestPartial run id => exact .inl ⟨_, rfl, rfl⟩
  | call i step => exact .inr (hnone rfl (w.service.tags_callStep i m step).2.2)
  | job i step =>
    refine .inl ⟨_, rfl, ?_⟩
    cases step <;> rfl
  | shutDown =>
    cases hs : w.stage with
    | eventsDrained =>
      refine .inl ⟨.close, by rw [jobEvent?, hs], ?_⟩
      simp [reports, Host.step, serve, jobEvent?, hs, shutDown, closeReports, reported,
        Registry.World.step, Registry.World.happen]
    | reportsClosed =>
      refine .inl ⟨.drain, by rw [jobEvent?, hs], ?_⟩
      simp [reports, Host.step, serve, jobEvent?, hs, shutDown, drainReports, reported,
        Registry.World.step, Registry.World.happen]
    | _ =>
      refine .inr (hnone (by rw [jobEvent?, hs]) ?_)
      simp [serve, hs, shutDown, closeEvents, drainEvents]
  | elsewhere change => exact .inr (hnone rfl rfl)

/-- What the events of the report jobs keep, and others who use the files and ask for detections,
a step keeps. -/
theorem reports_induction {P : Registry.World σ → Prop} (hstep : ∀ r e, P r → P (r.step e))
    (hother : ∀ r correlation files, P r → P { r with correlation, files }) {w : Host σ}
    (h : P w.reports) (e : Event σ × Moment) : P (w.step e).reports := by
  rcases w.reports_step e with ⟨e', -, hr⟩ | ⟨-, correlation, files, hr⟩
  · rw [hr]
    exact hstep _ _ h
  · rw [hr]
    exact hother _ _ _ h

/-- The tag calls see one event of theirs, or nothing. -/
theorem tagging_step (w : Host σ) (e : Event σ × Moment) :
    (∃ e', w.callEvent? e.1 = some e' ∧
      (w.step e).service.tagging = (w.service.tags.step (e', e.2)).client) ∨
    (w.callEvent? e.1 = none ∧ (w.step e).service.tagging = w.service.tagging) := by
  obtain ⟨e, m⟩ := e
  cases e with
  | dispatch event =>
    exact .inr ⟨rfl, w.service.dispatch_tagging event⟩
  | fetched i answer id =>
    have hcalls := w.service.fetched_calls i answer id m
    cases hg : w.service.given? i answer with
    | none =>
      rw [hg] at hcalls
      exact .inr ⟨by rw [callEvent?, hg]; rfl, hcalls⟩
    | some run =>
      rw [hg] at hcalls
      exact .inl ⟨.start run, by rw [callEvent?, hg]; rfl, hcalls⟩
  | tag run =>
    refine .inl ⟨.start run, rfl, ?_⟩
    cases hs : w.service.tagging.start run m <;>
      simp [Host.step, serve, startTag, hs, tags, Tagging.World.step, Tagging.World.happen]
  | requestReport run id => exact .inr ⟨rfl, rfl⟩
  | requestPartial run id => exact .inr ⟨rfl, rfl⟩
  | call i step => exact .inl ⟨_, rfl, (w.service.tags_callStep i m step).1⟩
  | job i step => exact .inr ⟨rfl, (w.service.reports_jobStep i m step).2.2⟩
  | shutDown =>
    obtain ⟨eventGroup, group, hs⟩ := w.service.shutDown_same w.stage
    exact .inr ⟨rfl, (congrArg Service.tagging hs :)⟩
  | elsewhere change => exact .inr ⟨rfl, rfl⟩

end Host
end AfterAction.Service
