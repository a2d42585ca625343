import AfterAction.Rehearsal.Stage

/-!
What can be done to a rehearsal from outside. After each action everything comes to rest.
-/

namespace AfterAction.Rehearsal

/-! Tag calls -/

/-- Begins a call and lets it go on until it waits. -/
def beginTag (r : Rehearsal) (run : Run) : Except InvalidRunId Nat × Rehearsal :=
  let r := r.turn
  match r.service.startTag run r.moment with
  | (.error fault, _) => (.error fault, r)
  | (.ok call, service) =>
    let r := { r with service }.send call
    (.ok call, (goOn (.call call) patience r).2)

/-- Begins calls in order. -/
def beginTags (r : Rehearsal) : List Run → List (Except InvalidRunId Nat) × Rehearsal
  | [] => ([], r)
  | run :: rest =>
    let (call, r) := r.beginTag run
    let (calls, r) := r.beginTags rest
    (call :: calls, r)

/-- How a call has ended; none while it has not. -/
def tagResult? (r : Rehearsal) (call : Except InvalidRunId Nat) :
    Option (Except TagFault TagOutcome) :=
  match call with
  | .error fault => some (.error (.invalid fault))
  | .ok i => (r.service.tagging.calls[i]?).bind TagCall.result?

/-- Tags runs side by side: how each call ended, in the order of the runs. -/
def tagAll (r : Rehearsal) (runs : List Run) :
    List (Option (Except TagFault TagOutcome)) × Rehearsal :=
  let (calls, r) := r.beginTags runs
  let r := r.settle
  (calls.map r.tagResult?, r)

/-! Detections -/

/-- Asks for the detections of a run and waits for them. -/
def fetchDetections (r : Rehearsal) (c : Correlation) (run : Run) :
    Detections × Correlation × Rehearsal :=
  let r := r.turn
  match c.ask run r.moment with
  | (.error detections, c) => (detections, c, r)
  | (.ok query, c) =>
    let (reply, searches) := Reply.next [] r.script.searches
    let r := { r with script := { r.script with searches }, searches := r.searches + 1 }
    let due := r.timer + reply.delay
    if due ≤ query.deadline then
      let r := { r with timer := due }
      let (detections, c) := c.answered run query reply.answer r.moment
      (detections, c, r)
    else
      let r := { r with timer := query.deadline }
      let (detections, c) := c.expired query r.moment
      (detections, c, r)

/-! Events and reports -/

def dispatch (r : Rehearsal) (event : LifecycleEvent) : Except DispatchFault Unit × Rehearsal :=
  let r := r.turn
  let (answer, service) := r.service.dispatch event
  (answer, { r with service }.settle)

/-- The job as it was when the request was answered. -/
def asked (answer : Except ReportFault Nat) (s : Service MemoryFiles) :
    Except ReportFault (Option ReportJob) :=
  answer.map s.registry.job?

def requestReport (r : Rehearsal) (run : Run) :
    Except ReportFault (Option ReportJob) × Rehearsal :=
  let r := r.turn
  let (answer, service) := r.service.requestReport run r.jobId r.moment
  (asked answer service, { r with service }.settle)

def requestPartial (r : Rehearsal) (run : Run) :
    Except ReportFault (Option ReportJob) × Rehearsal :=
  let r := r.turn
  let (answer, service) := r.service.requestPartial run r.jobId r.moment
  (asked answer service, { r with service }.settle)

/-! Requests -/

/-- The store's place in a rehearsal. -/
def location : String := "memory://store"

/-- Answers a call; none if it has to wait for something that does not come. -/
def respond (r : Rehearsal) (call : Api.Call) : Option Api.Response × Rehearsal :=
  match Api.handle r.service call location r.suffix r.moment with
  | .answered response service => (some response, { r with service }.settle)
  | .fetching runId allowPartial =>
    let (response, service) :=
      Api.fetched r.service allowPartial (r.script.run runId) r.jobId r.moment
    (some response, { r with service, fetches := r.fetches + 1 }.settle)
  | .tagging call service =>
    let r := ({ r with service }.send call).settle
    ((r.tagResult? (.ok call)).map Api.tagged, r)

def http (r : Rehearsal) (incoming : Api.Incoming) : Option Api.Response × Rehearsal :=
  match Api.route incoming with
  | .error refusal => (some (.refused refusal), r.settle)
  | .ok call =>
    let (response, r) := r.turn.respond call
    (if incoming.method = "HEAD" then response.map (·.bodiless) else response, r)

/-! The stage -/

def changeScript (r : Rehearsal) (change : Script → Script) : Rehearsal :=
  { r with script := change r.script }.settle

def setRun (r : Rehearsal) (id : String) (answer : Except RemoteFault Run) : Rehearsal :=
  r.changeScript fun s => { s with runs := (id, answer) :: s.runs }

def setDrawing (r : Rehearsal) (runId : String) (mode : DrawingMode) : Rehearsal :=
  r.changeScript fun s => { s with drawing := (runId, mode) :: s.drawing }

def setTroubles (r : Rehearsal) (troubles : List FileTrouble) : Rehearsal :=
  let files := { r.service.files with troubles }
  { r with service := { r.service with files } }.settle

def advance (r : Rehearsal) (milliseconds : Nat) : Rehearsal :=
  { r with timer := r.timer + milliseconds }.settle

/-- Nobody is stuck any more. -/
def releaseWorkers (r : Rehearsal) : Rehearsal :=
  { r with script := { r.script with
    drawing := r.script.drawing.map fun (runId, mode) =>
      (runId, if mode = .held ∨ mode = .heldWriting then .well else mode) } }

def shutdownEvents (r : Rehearsal) : Rehearsal :=
  let r := r.releaseWorkers
  { r with service := r.service.closeEvents.drainEvents }.settle

def shutdownReports (r : Rehearsal) : Rehearsal :=
  let r := r.releaseWorkers
  { r with service := r.service.closeReports.drainReports }.settle

/-! What can be seen of it -/

def document? (r : Rehearsal) (id : String) : Option TagDocument := r.stored.lookup id

/-- Files under a directory, by path. -/
def filesIn (r : Rehearsal) (directory : String) : List (String × FileContent) :=
  (r.service.files.files.filter fun (path, _) =>
    Path.parentParts path == Path.parts directory).mergeSort fun a b => a.1 ≤ b.1

/-- The report that sorts last of those with the run id in their path; every path has the empty
one. -/
def reportFile? (r : Rehearsal) (runId : String) : Option Pdf :=
  let holding := (r.filesIn r.service.registry.settings.directory).filter fun (path, _) =>
    runId.isEmpty || (path.splitOn runId).length > 1
  match holding.getLast? with
  | some (_, .document pdf) => some pdf
  | _ => none

/-- What was drawn so far, by run id. -/
def rendered (r : Rehearsal) : List (String × Detections) :=
  (r.drawn.reverse.map (·.2)).mergeSort fun a b => a.1 ≤ b.1

end AfterAction.Rehearsal
