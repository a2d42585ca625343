import AfterAction.Api.Response
import AfterAction.Proofs.Correlation.World
import AfterAction.Proofs.Files.Calls
import AfterAction.Proofs.Report.World
import AfterAction.Proofs.Tagging.World

/-!
# The service with all that comes to it

`System` is a service whose calls to the file system are recorded, with the requests for reports
that wait for the engine and with fetches of detections of their own. `step` lets one thing happen:
a request comes in, an event is dispatched, the engine or the store answers, time runs out, a task
or a worker goes on, somebody else uses the files. A run is any list of these.

Whatever happens, the service is changed by few operations only. `Stable` lists them, and what all
of them keep holds throughout every run.
-/

namespace AfterAction.Service

/-! ## Steps of calls and jobs -/

/-- How a tag call goes on. -/
inductive CallStep
  | notice
  | answered (answer : Except RemoteFault String)
  | resume
  | expire
  | keep (suffix : UInt32)

/-- How a report job's task or worker goes on. -/
inductive JobStep
  | begin
  | answered (answer : Except RemoteFault (List Evidence))
  | queryExpired
  | notice
  | expire
  | discard
  | mark
  | finish
  | work (trouble : Option DrawingTrouble)

variable {σ : Type}

def CallStep.event (i : Nat) : CallStep → Tagging.Event σ
  | .notice => .notice i
  | .answered answer => .answered i answer
  | .resume => .resume i
  | .expire => .expire i
  | .keep suffix => .keep i suffix

def JobStep.event (i : Nat) : JobStep → Registry.Event σ
  | .begin => .begin i
  | .answered answer => .answered i answer
  | .queryExpired => .queryExpired i
  | .notice => .notice i
  | .expire => .expire i
  | .discard => .discard i
  | .mark => .mark i
  | .finish => .finish i
  | .work trouble => .work i trouble

/-- The tag calls and the files. -/
def tags (s : Service σ) : Tagging.World σ := ⟨s.tagging, s.files, []⟩

/-- The report jobs with what they ask and write. -/
def reports (s : Service σ) : Registry.World σ := ⟨s.registry, s.correlation, s.files, []⟩

variable [FileStore σ]

def callStep (s : Service σ) (i : Nat) (m : Moment) : CallStep → Service σ
  | .notice => s.tagged (·.notice i m)
  | .answered answer => s.tagged (·.answered i answer m)
  | .resume => s.tagged (·.resume i m)
  | .expire => s.tagged (·.expire i m)
  | .keep suffix => s.keep i suffix m

def jobStep (s : Service σ) (i : Nat) (m : Moment) : JobStep → Service σ
  | .begin => s.correlated fun r c => r.begin c i m
  | .answered answer => s.correlated fun r c => r.answered c i answer m
  | .queryExpired => s.correlated fun r c => r.queryExpired c i m
  | .notice => s.reported (·.notice i)
  | .expire => s.reported (·.expire i m)
  | .discard => s.filed fun r files => r.discard i files
  | .mark => s.reported (·.mark i m)
  | .finish => s.reported (·.finish i m)
  | .work trouble => s.filed fun r files => r.work i trouble m files

/-- A tag call begins unless the run's id is malformed. -/
theorem startTag_cases (s : Service σ) (run : Run) (m : Moment) :
    (RunId.wellFormed run.id = false ∧ s.startTag run m = (.error ⟨preview run.id⟩, s)) ∨
    (RunId.wellFormed run.id = true ∧ ∃ document,
      TagDocument.ofRun s.tagging.settings.limits m.wall run = .ok document ∧
      (s.startTag run m).2 = { s with tagging := (s.tags.step (.start run, m)).client }) := by
  rcases TagDocument.ofRun_cases s.tagging.settings.limits m.wall run with
    ⟨hbad, hd⟩ | ⟨hgood, document, hd⟩
  · refine .inl ⟨hbad, ?_⟩
    rw [startTag, Tagging.start, hd]
    rfl
  · refine .inr ⟨hgood, document, hd, ?_⟩
    simp only [startTag, Tagging.World.step, Tagging.World.happen, tags]
    rw [Tagging.start, hd]
    rfl

theorem tags_callStep (s : Service σ) (i : Nat) (m : Moment) (step : CallStep) :
    (s.callStep i m step).tagging = (s.tags.step (step.event i, m)).client ∧
    (s.callStep i m step).files = (s.tags.step (step.event i, m)).files ∧
    (s.callStep i m step).registry = s.registry := by
  cases step <;> exact ⟨rfl, rfl, rfl⟩

theorem reports_jobStep (s : Service σ) (i : Nat) (m : Moment) (step : JobStep) :
    (s.jobStep i m step).registry = (s.reports.step (step.event i, m)).registry ∧
    (s.jobStep i m step).files = (s.reports.step (step.event i, m)).files ∧
    (s.jobStep i m step).tagging = s.tagging := by
  cases step <;> exact ⟨rfl, rfl, rfl⟩

theorem CallStep.oneMove (w : Tagging.World σ) (i : Nat) (m : Moment) (step : CallStep) :
    w.OneMove (step.event i, m) := by
  cases step with
  | notice => exact Tagging.World.oneMove_notice w i m
  | answered answer => exact Tagging.World.oneMove_answered w i answer m
  | resume => exact Tagging.World.oneMove_resume w i m
  | expire => exact Tagging.World.oneMove_expire w i m
  | keep suffix => exact Tagging.World.oneMove_keep w i suffix m

theorem JobStep.oneMove (w : Registry.World σ) (i : Nat) (m : Moment) (step : JobStep) :
    w.OneMove (step.event i, m) := by
  cases step with
  | begin => exact Registry.World.oneMove_begin w i m
  | answered answer => exact Registry.World.oneMove_answered w i answer m
  | queryExpired => exact Registry.World.oneMove_queryExpired w i m
  | notice => exact Registry.World.oneMove_notice w i m
  | expire => exact Registry.World.oneMove_expire w i m
  | discard => exact Registry.World.oneMove_discard w i m
  | mark => exact Registry.World.oneMove_mark w i m
  | finish => exact Registry.World.oneMove_finish w i m
  | work trouble => exact Registry.World.oneMove_work w i trouble m

/-! ## The system -/

/-- A request for a report, and its response once the engine has answered for the run. -/
structure Inquiry where
  runId : RunId
  allowPartial : Bool
  response : Option Api.Response

structure System (σ : Type) where
  service : Service (RecordedFiles σ)
  /-- Requests for reports and fetches are known by their places. -/
  inquiries : List Inquiry
  fetches : List Fetch

namespace System

/-- What can happen. Tasks, calls and jobs are known by their places too. -/
inductive Event (σ : Type)
  /-- A request comes in from the net. -/
  | incoming (request : Api.Incoming) (location : String) (suffix : UInt32)
  | dispatch (event : LifecycleEvent)
  | tag (run : Run)
  | fetch (run : Run)
  | requestReport (run : Run) (id : JobId)
  | requestPartial (run : Run) (id : JobId)
  /-- The engine answers an event's task. A new report job gets the identifier. -/
  | fetched (i : Nat) (answer : Except RemoteFault Run) (id : JobId)
  /-- The engine answers for the run of a request for a report. -/
  | inquired (i : Nat) (answer : Except RemoteFault Run) (id : JobId)
  | call (i : Nat) (step : CallStep)
  | job (i : Nat) (step : JobStep)
  /-- The store answers a fetch, or its time is over. -/
  | evidence (i : Nat) (answer : Except RemoteFault (List Evidence))
  | overdue (i : Nat)
  | closeEvents
  | drainEvents
  | closeReports
  | drainReports
  /-- Somebody else uses the file system. -/
  | elsewhere (change : σ → σ)

/-- A service that has not been asked for anything. -/
def new (tagging : TagSettings) (breaker : Breaker) (correlation : Option Correlation)
    (reports : ReportSettings) (files : σ) : System σ :=
  ⟨.new (.new tagging breaker) correlation (.new reports) (.fresh files), [], []⟩

def served (w : System σ) (service : Service (RecordedFiles σ)) : System σ := { w with service }

/-- What a call leaves of the service. -/
def after (s : Service (RecordedFiles σ)) :
    Api.Progress (RecordedFiles σ) → Service (RecordedFiles σ)
  | .answered _ s' => s'
  | .fetching .. => s
  | .tagging _ s' => s'

/-- The request for a report that waits for the engine. -/
def inquiry? : Api.Progress (RecordedFiles σ) → Option Inquiry
  | .fetching runId allowPartial => some ⟨runId, allowPartial, none⟩
  | _ => none

/-- A request comes in. -/
def incoming (w : System σ) (request : Api.Incoming) (location : String) (suffix : UInt32)
    (m : Moment) : System σ :=
  match Api.route request with
  | .error _ => w
  | .ok call =>
    let progress := Api.handle w.service call location suffix m
    { w with
      service := after w.service progress
      inquiries := w.inquiries ++ (inquiry? progress).toList }

/-- The engine answers for the run of a request. -/
def inquired (w : System σ) (i : Nat) (answer : Except RemoteFault Run) (id : JobId) (m : Moment) :
    System σ :=
  match w.inquiries[i]? with
  | some ⟨_, allowPartial, none⟩ =>
    let (response, service) := Api.fetched w.service allowPartial answer id m
    { w with
      service
      inquiries := w.inquiries.modify i fun inquiry => { inquiry with response := some response } }
  | _ => w

/-- The fetches go on, where detections are wanted at all. -/
def correlated (w : System σ) (e : Correlation.Event × Moment) : System σ :=
  match w.service.correlation with
  | none => w
  | some correlation =>
    let next := Correlation.World.step ⟨correlation, w.fetches, []⟩ e
    { w with
      service := { w.service with correlation := some next.correlation }
      fetches := next.fetches }

def step (w : System σ) : Event σ × Moment → System σ
  | (.incoming request location suffix, m) => w.incoming request location suffix m
  | (.dispatch event, _) => w.served (w.service.dispatch event).2
  | (.tag run, m) => w.served (w.service.startTag run m).2
  | (.fetch run, m) => w.correlated (.fetch run, m)
  | (.requestReport run id, m) => w.served (w.service.requestReport run id m).2
  | (.requestPartial run id, m) => w.served (w.service.requestPartial run id m).2
  | (.fetched i answer id, m) => w.served (w.service.fetched i answer id m)
  | (.inquired i answer id, m) => w.inquired i answer id m
  | (.call i step, m) => w.served (w.service.callStep i m step)
  | (.job i step, m) => w.served (w.service.jobStep i m step)
  | (.evidence i answer, m) => w.correlated (.answered i answer, m)
  | (.overdue i, m) => w.correlated (.expire i, m)
  | (.closeEvents, _) => w.served w.service.closeEvents
  | (.drainEvents, _) => w.served w.service.drainEvents
  | (.closeReports, _) => w.served w.service.closeReports
  | (.drainReports, _) => w.served w.service.drainReports
  | (.elsewhere change, _) =>
    w.served { w.service with files := w.service.files.elsewhere change }

def play (w : System σ) (es : List (Event σ × Moment)) : System σ := es.foldl step w

omit [FileStore σ] in
/-- What a call does at once: an event is dispatched, the connectivity test begins its tag call, and
a request for a report with a well-formed run id waits for the engine. -/
theorem handle_does (s : Service (RecordedFiles σ)) (call : Api.Call) (location : String)
    (suffix : UInt32) (m : Moment) :
    (after s (Api.handle s call location suffix m),
        inquiry? (Api.handle s call location suffix m)) =
      match call with
      | .event event => ((s.dispatch event).2, none)
      | .tagTest => ((s.startTag (Api.testRun suffix m.wall) m).2, none)
      | .report request =>
        (s, (RunId.parse request.runId).toOption.map (⟨·, request.allowPartial, none⟩))
      | _ => (s, none) := by
  cases call with
  | event event =>
    dsimp only [Api.handle]
    rcases s.dispatch event with ⟨_ | _, s'⟩
    · rfl
    · rfl
  | report request =>
    dsimp only [Api.handle]
    cases RunId.parse request.runId with
    | error fault => rfl
    | ok runId => rfl
  | findReport runId =>
    dsimp only [Api.handle]
    cases s.registry.lookup runId with
    | none => rfl
    | some job => rfl
  | tagTest =>
    dsimp only [Api.handle]
    rcases s.startTag (Api.testRun suffix m.wall) m with ⟨_ | _, s'⟩
    · rfl
    · rfl
  | _ => rfl

/-! ## What every step keeps -/

/-- All operations that change the service keep this of it. -/
structure Stable (P : Service (RecordedFiles σ) → Prop) : Prop where
  spawn : ∀ s runId wantsReport, P s → P (s.spawn runId wantsReport).2
  setEvent : ∀ s i phase, P s → P (s.setEvent i phase)
  startTag : ∀ s run m, P s → P (s.startTag run m).2
  requestReport : ∀ s run id m, P s → P (s.requestReport run id m).2
  requestPartial : ∀ s run id m, P s → P (s.requestPartial run id m).2
  callStep : ∀ s i m step, P s → P (s.callStep i m step)
  jobStep : ∀ s i m step, P s → P (s.jobStep i m step)
  correlation : ∀ s correlation, P s → P { s with correlation }
  eventGroup : ∀ s eventGroup, P s → P { s with eventGroup }
  reportGroup : ∀ s group, P s → P { s with registry := { s.registry with group } }
  elsewhere : ∀ s change, P s → P { s with files := s.files.elsewhere change }

namespace Stable

variable {P : Service (RecordedFiles σ) → Prop} {s : Service (RecordedFiles σ)} {w : System σ}

theorem dispatch (h : Stable P) (hs : P s) (event : LifecycleEvent) : P (s.dispatch event).2 := by
  unfold Service.dispatch
  split
  · exact hs
  · split
    · exact hs
    · exact h.spawn s _ _ hs
    · exact h.spawn s _ _ hs

theorem fetched (h : Stable P) (hs : P s) (i : Nat) (answer : Except RemoteFault Run) (id : JobId)
    (m : Moment) : P (s.fetched i answer id m) := by
  unfold Service.fetched
  split
  · rename_i wantsReport run _
    have htag := h.startTag s run m hs
    have hreport : P (if wantsReport then
        ((s.startTag run m).2.requestReport run id m).2 else (s.startTag run m).2) := by
      split
      · exact h.requestReport _ run id m htag
      · exact htag
    dsimp only
    split
    · exact h.setEvent _ i _ hreport
    · exact h.setEvent _ i _ hreport
  · exact h.setEvent s i _ hs
  · exact hs

theorem incoming (h : Stable P) (hs : P w.service) (request : Api.Incoming) (location : String)
    (suffix : UInt32) (m : Moment) : P (w.incoming request location suffix m).service := by
  unfold System.incoming
  split
  · exact hs
  · rename_i call _
    have hdoes := congrArg Prod.fst (handle_does w.service call location suffix m)
    dsimp only at hdoes ⊢
    rw [hdoes]
    cases call with
    | event event => exact h.dispatch hs event
    | tagTest => exact h.startTag _ _ m hs
    | _ => exact hs

theorem inquired (h : Stable P) (hs : P w.service) (i : Nat) (answer : Except RemoteFault Run)
    (id : JobId) (m : Moment) : P (w.inquired i answer id m).service := by
  unfold System.inquired
  split
  · rename_i allowPartial _
    show P (Api.fetched w.service allowPartial answer id m).2
    unfold Api.fetched
    split
    · exact hs
    · rename_i run
      dsimp only
      split
      · exact h.requestPartial _ run id m hs
      · exact h.requestReport _ run id m hs
  · exact hs

theorem correlated (h : Stable P) (hs : P w.service) (e : Correlation.Event × Moment) :
    P (w.correlated e).service := by
  unfold System.correlated
  split
  · exact hs
  · exact h.correlation _ _ hs

/-- What all operations keep, a step keeps. -/
theorem step (h : Stable P) (hs : P w.service) (e : Event σ × Moment) : P (w.step e).service := by
  obtain ⟨e, m⟩ := e
  cases e with
  | incoming request location suffix => exact h.incoming hs request location suffix m
  | dispatch event => exact h.dispatch hs event
  | tag run => exact h.startTag _ run m hs
  | fetch run => exact h.correlated hs _
  | requestReport run id => exact h.requestReport _ run id m hs
  | requestPartial run id => exact h.requestPartial _ run id m hs
  | fetched i answer id => exact h.fetched hs i answer id m
  | inquired i answer id => exact h.inquired hs i answer id m
  | call i step => exact h.callStep _ i m step hs
  | job i step => exact h.jobStep _ i m step hs
  | evidence i answer => exact h.correlated hs _
  | overdue i => exact h.correlated hs _
  | closeEvents => exact h.eventGroup _ _ hs
  | drainEvents => exact h.eventGroup _ _ hs
  | closeReports => exact h.reportGroup _ _ hs
  | drainReports => exact h.reportGroup _ _ hs
  | elsewhere change => exact h.elsewhere _ change hs

/-- What all operations keep, a run keeps. -/
theorem play (h : Stable P) (hs : P w.service) (es : List (Event σ × Moment)) :
    P (w.play es).service := by
  induction es generalizing w with
  | nil => exact hs
  | cons e es ih => exact ih (h.step hs e)

end Stable
end System
end AfterAction.Service
