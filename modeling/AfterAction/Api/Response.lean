import AfterAction.Api.Route
import AfterAction.Service

/-!
Responses: what the service says to a call. Most calls are answered at once; a request for a report
waits for the engine to hand over the run, and the connectivity test for its tag call to end.
-/

namespace AfterAction.Api

inductive Body
  | empty
  | text (text : String)
  | json (value : Json)
  deriving Repr

structure Response where
  status : Nat
  body : Body
  deriving Repr

namespace Response

def value (status : Nat) (v : Json) : Response := ⟨status, .json v⟩

def fault (status : Nat) (message : String) : Response :=
  value status (.object [("error", .string message)])

def refused (r : Refusal) : Response := ⟨r.status, .empty⟩

def bodiless (r : Response) : Response := { r with body := .empty }

/-- A run the engine does not know is not found; all other troubles with the engine are its own. -/
def ofRemote (f : RemoteFault) : Response :=
  if f.isNotFound then fault 404 f.message else fault 502 "Engine request failed"

def ofDispatch (f : DispatchFault) : Response :=
  match f with
  | .invalid _ => fault 400 f.message
  | .closed => fault 503 f.message

def ofReport (f : ReportFault) : Response :=
  match f with
  | .invalid _ => fault 400 f.message
  | .notFinished .. => fault 409 f.message
  | .closed => fault 503 f.message

def ofTag (f : TagFault) : Response :=
  match f with
  | .invalid _ => fault 400 f.message
  | _ => fault 500 f.message

end Response

section

variable {σ : Type}

/-- Jobs by state, for the states there are and the three that are always told. -/
def jobCounts (jobs : List ReportJob) : List (String × Json) :=
  [JobState.done, .failed, .queued, .rendering, .timedOut].filterMap fun state =>
    let n := jobs.countP (·.state = state)
    if n = 0 ∧ (state = .failed ∨ state = .timedOut) then none
    else some (state.name, Json.ofNat n)

/-- The service at a glance; the location is the store's. -/
def statusJson (s : Service σ) (location : String) (m : Moment) : Json := .object [
  ("store", .string location),
  ("fallback_dir", .string s.tagging.settings.fallbackDirectory),
  ("tagging_breaker", s.tagging.breaker.toJson "tagging" m.steady),
  ("detection_breaker",
    Json.ofOption (fun c => c.breaker.toJson "detection" m.steady) s.correlation),
  ("tag_slots_available", Json.ofNat s.tagging.slots.idle),
  ("pending_events", Json.ofNat s.pending),
  ("idle_report_workers", Json.ofNat s.registry.pool.idle),
  ("report_jobs", .object (jobCounts s.registry.jobs))]

/-- The run of the connectivity test, finished as soon as it started. -/
def testRun (suffix : UInt32) (now : Instant) : Run :=
  let step (techniqueId tactic : String) : Step :=
    ⟨techniqueId, none, tactic, .success, "", none⟩
  { id := "purple-test-" ++ Fallback.suffixText suffix
    name := "Connectivity Test"
    tenant := "purple-test"
    state := .finished
    startedAt := some now
    finishedAt := some now
    steps := [step "T1059.001" "execution", step "T1082" "discovery"] }

/-- How far a call gets at once. -/
inductive Progress (σ : Type)
  | answered (response : Response) (service : Service σ)
  /-- The run has to be fetched from the engine. -/
  | fetching (runId : RunId) (allowPartial : Bool)
  /-- The tag call with this place has to end. -/
  | tagging (call : Nat) (service : Service σ)

def eventResponse (event : LifecycleEvent) : Response := .value 202 (.object [
  ("accepted", .bool true), ("event", .string event.kind), ("run_id", .string event.runId)])

def handle (s : Service σ) (call : Call) (location : String) (suffix : UInt32) (m : Moment) :
    Progress σ :=
  match call with
  | .health => .answered ⟨200, .text "OK"⟩ s
  | .status => .answered (.value 200 (statusJson s location m)) s
  | .event event =>
    match s.dispatch event with
    | (.ok (), s) => .answered (eventResponse event) s
    | (.error fault, s) => .answered (.ofDispatch fault) s
  | .report request =>
    match RunId.parse request.runId with
    | .ok runId => .fetching runId request.allowPartial
    | .error fault => .answered (.fault 400 fault.message) s
  | .listReports =>
    .answered (.value 200 (.array (s.registry.jobs.map ReportJob.toJson))) s
  | .findReport runId =>
    match s.registry.lookup runId with
    | some job => .answered (.value 200 job.toJson) s
    | none => .answered (.fault 404 ("No report for run " ++ runId)) s
  | .tagTest =>
    match s.startTag (testRun suffix m.wall) m with
    | (.ok call, s) => .tagging call s
    | (.error fault, s) => .answered (.ofTag (.invalid fault)) s

/-- The response to a request for a report: the job as it is now. -/
def reportResponse (answer : Except ReportFault Nat) (s : Service σ) : Response :=
  match answer with
  | .ok i => .value 202 (Json.ofOption ReportJob.toJson (s.registry.job? i))
  | .error fault => .ofReport fault

/-- The engine has answered for a report's run. A run that has not finished gets a partial report,
where that is allowed. -/
def fetched (s : Service σ) (allowPartial : Bool) (answer : Except RemoteFault Run) (id : JobId)
    (m : Moment) : Response × Service σ :=
  match answer with
  | .error fault => (.ofRemote fault, s)
  | .ok run =>
    let (answer, s) :=
      if !run.isFinished && allowPartial then s.requestPartial run id m
      else s.requestReport run id m
    (reportResponse answer s, s)

/-- The tag call of a connectivity test has ended. -/
def tagged (result : Except TagFault TagOutcome) : Response :=
  match result with
  | .ok outcome => .value 200 outcome.toJson
  | .error fault => .ofTag fault

end

end AfterAction.Api
