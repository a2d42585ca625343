import AfterAction.Lifecycle
import AfterAction.Report.Registry
import AfterAction.Tagging

/-!
The service: lifecycle events become tasks that fetch their run, tag it and, once it has finished,
ask for its report. Tagging, correlation and reports share the files but nothing else, so none of
them waits for another.
-/

namespace AfterAction

inductive DispatchFault
  | invalid (fault : InvalidRunId)
  | closed
  deriving DecidableEq, Repr

def DispatchFault.message : DispatchFault → String
  | .invalid fault => fault.message
  | .closed => "dispatcher is shutting down"

/-- Where an event's task stands. -/
inductive EventPhase
  | fetching
  /-- In the tag call with this place. -/
  | tagging (call : Nat)
  | ended
  deriving DecidableEq, Repr

structure EventTask where
  runId : RunId
  /-- The event says that the run has finished. -/
  wantsReport : Bool
  phase : EventPhase
  deriving DecidableEq

structure Service (σ : Type) where
  tagging : Tagging
  correlation : Option Correlation
  registry : Registry
  /-- Tasks are known by their place in the list. -/
  events : List EventTask
  eventGroup : TaskGroup Nat
  files : σ

namespace Service

variable {σ : Type}

def new (tagging : Tagging) (correlation : Option Correlation) (registry : Registry)
    (files : σ) : Service σ :=
  ⟨tagging, correlation, registry, [], TaskGroup.empty, files⟩

/-! Events -/

def callEnded (s : Service σ) (call : Nat) : Bool :=
  match s.tagging.phase? call with
  | some (.ended _) => true
  | _ => false

def eventEnded (s : Service σ) (i : Nat) : Bool :=
  match s.events[i]? with
  | some ⟨_, _, .fetching⟩ => false
  | some ⟨_, _, .tagging call⟩ => s.callEnded call
  | _ => true

/-- A task for an event, unless no more are taken. -/
def spawn (s : Service σ) (runId : RunId) (wantsReport : Bool) :
    Except DispatchFault Unit × Service σ :=
  match s.eventGroup.spawn? s.eventEnded s.events.length with
  | none => (.error .closed, s)
  | some eventGroup =>
    (.ok (), { s with eventGroup, events := s.events ++ [⟨runId, wantsReport, .fetching⟩] })

/-- Takes an event in. That a run has started is noted and no work. -/
def dispatch (s : Service σ) (event : LifecycleEvent) :
    Except DispatchFault Unit × Service σ :=
  match RunId.parse event.runId with
  | .error fault => (.error (.invalid fault), s)
  | .ok runId =>
    match event with
    | .started _ => (.ok (), s)
    | .stateChanged .. => s.spawn runId false
    | .finished _ => s.spawn runId true

def setEvent (s : Service σ) (i : Nat) (phase : EventPhase) : Service σ :=
  { s with events := s.events.modify i fun task => { task with phase } }

/-- Begins a tag call for a run: its place, unless the run's id is malformed. -/
def startTag (s : Service σ) (run : Run) (m : Moment) :
    Except InvalidRunId Nat × Service σ :=
  match s.tagging.start run m with
  | .ok (call, tagging) => (.ok call, { s with tagging })
  | .error fault => (.error fault, s)

/-- Asks for a report; a new job gets the identifier. -/
def requestReport (s : Service σ) (run : Run) (id : JobId) (m : Moment) :
    Except ReportFault Nat × Service σ :=
  let (answer, registry) := s.registry.request run id m
  (answer, { s with registry })

def requestPartial (s : Service σ) (run : Run) (id : JobId) (m : Moment) :
    Except ReportFault Nat × Service σ :=
  let (answer, registry) := s.registry.requestPartial run id m
  (answer, { s with registry })

/-- The engine answers an event's task. An event whose run cannot be had is dropped. -/
def fetched (s : Service σ) (i : Nat) (answer : Except RemoteFault Run) (id : JobId)
    (m : Moment) : Service σ :=
  match s.events[i]?, answer with
  | some ⟨_, wantsReport, .fetching⟩, .ok run =>
    let (call, s) := s.startTag run m
    let s := if wantsReport then (s.requestReport run id m).2 else s
    match call with
    | .ok call => s.setEvent i (.tagging call)
    | .error _ => s.setEvent i .ended
  | some ⟨_, _, .fetching⟩, .error _ => s.setEvent i .ended
  | _, _ => s

/-- Event tasks taken in and not yet forgotten. -/
def pending (s : Service σ) : Nat := s.eventGroup.size

/-! Steps of the parts -/

def tagged (s : Service σ) (step : Tagging → Tagging) : Service σ :=
  { s with tagging := step s.tagging }

def keep [FileStore σ] (s : Service σ) (call : Nat) (suffix : UInt32) (m : Moment) : Service σ :=
  let (tagging, files) := s.tagging.keep call suffix m s.files
  { s with tagging, files }

def reported (s : Service σ) (step : Registry → Registry) : Service σ :=
  { s with registry := step s.registry }

/-- A step of a report task that may touch the correlation. -/
def correlated (s : Service σ)
    (step : Registry → Option Correlation → Registry × Option Correlation) : Service σ :=
  let (registry, correlation) := step s.registry s.correlation
  { s with registry, correlation }

/-- A step of a report task or worker that may touch the files. -/
def filed (s : Service σ) (step : Registry → σ → Registry × σ) : Service σ :=
  let (registry, files) := step s.registry s.files
  { s with registry, files }

/-! Shutting down: events first, so that accepted events can still ask for their reports -/

def closeEvents (s : Service σ) : Service σ := { s with eventGroup := s.eventGroup.close }

def drainEvents (s : Service σ) : Service σ := { s with eventGroup := s.eventGroup.drain }

def closeReports (s : Service σ) : Service σ := s.reported (·.close)

def drainReports (s : Service σ) : Service σ := s.reported (·.drain)

end Service
end AfterAction
