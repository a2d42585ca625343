import AfterAction.Correlation
import AfterAction.Crash
import AfterAction.Files.Path
import AfterAction.Files.Store
import AfterAction.Report.Job
import AfterAction.Slots
import AfterAction.Table
import AfterAction.TaskGroup

/-!
The registry of report jobs. A run has at most one job that is queued, rendering or done; asking
for its report again gives that job. Partial reports are jobs of their own and never in each
other's way.

Every job is carried by a task: it fetches detections, waits for a worker, and waits for the worker
to finish, under one deadline for the last two. A worker runs beside its task and keeps its place in
the pool until it really returns; one that is given up is told so by a flag that it looks at.

Tasks and workers move in steps, each the work between two waits, or between two effects another
part can see. A step that does not fit changes nothing.
-/

namespace AfterAction

inductive ReportFault
  | invalid (fault : InvalidRunId)
  | notFinished (runId : String) (state : RunState)
  | closed
  deriving DecidableEq, Repr

def ReportFault.message : ReportFault → String
  | .invalid fault => fault.message
  | .notFinished runId state =>
    "run " ++ runId ++ " is " ++ state.name ++ ", reports need a finished run"
  | .closed => "report coordinator is shutting down"

/-- Why a worker came back without a report. -/
inductive RenderFault
  | drawing (detail : String)
  | file (fault : FileFault)
  | crashed (report : String)
  | abandoned
  deriving DecidableEq, Repr

def RenderFault.message : RenderFault → String
  | .drawing detail => "render failed: PDF encoding failed: " ++ detail
  | .file fault => "output write failed: " ++ fault.message
  | .crashed report => "render worker crashed: " ++ report
  | .abandoned => "worker abandoned after deadline"

/-- What makes drawing go wrong. -/
inductive DrawingTrouble
  | failing (detail : String)
  | crashing (message : String)
  deriving DecidableEq, Repr

/-- What a worker does next. -/
inductive Worker
  | drawing (detections : Detections)
  | checking (pdf : Pdf)
  | preparing (pdf : Pdf)
  | writing (pdf : Pdf)
  | rechecking
  | removing
  | returned (result : Except RenderFault Unit)

/-- Where a job's task stands. -/
inductive ReportPhase
  | fresh
  | asking (query : DetectionQuery)
  /-- For a worker. -/
  | waiting (detections : Detections) (deadline : Nat)
  | rendering (deadline : Nat)
  /-- The deadline has passed and the output is being removed. -/
  | discarding
  /-- The output is removed and the job not marked yet. -/
  | discarded
  | ended

structure ReportTask where
  run : Run
  job : ReportJob
  phase : ReportPhase
  /-- Where the report goes, once that is decided. -/
  path : String
  /-- The worker's flag. -/
  abandoned : Bool
  worker : Option Worker

structure ReportSettings where
  workers : Nat
  /-- Milliseconds for waiting and rendering. -/
  deadline : Nat
  directory : String
  company : String
  deriving DecidableEq, Repr

structure Registry where
  settings : ReportSettings
  /-- Tasks are known by their place in the list of tasks. -/
  pool : Slots Nat
  tasks : List ReportTask
  /-- The job of each run; a later entry has taken the place of an earlier one. -/
  tracked : List (String × Nat)
  partials : List Nat
  group : TaskGroup Nat

namespace Registry

def new (settings : ReportSettings) : Registry :=
  ⟨settings, Slots.new settings.workers, [], [], [], TaskGroup.empty⟩

/-- Partial jobs that have ended are kept up to this number, the next one included. -/
def keptPartials : Nat := 16

/-! Looking up -/

def job? (r : Registry) (i : Nat) : Option ReportJob := (r.tasks[i]?).map (·.job)

def isEnded (r : Registry) (i : Nat) : Bool :=
  match r.tasks[i]? with
  | some task => match task.phase with
    | .ended => true
    | _ => false
  | none => true

def trackedTask? (r : Registry) (runId : String) : Option Nat := r.tracked.lookup runId

/-- The later of two jobs; the second where they are as old as each other. -/
def latest (a b : ReportJob) : ReportJob :=
  if a.requestedAt.notAfter b.requestedAt then b else a

/-- The tracked job of a run, or else its latest partial one. -/
def lookup (r : Registry) (runId : String) : Option ReportJob :=
  ((r.trackedTask? runId).bind r.job?) <|>
    match (r.partials.filterMap r.job?).filter (·.runId = runId) with
    | [] => none
    | job :: rest => some (rest.foldl latest job)

/-- All jobs, oldest first. -/
def jobs (r : Registry) : List ReportJob :=
  ((r.tracked.map (·.2) ++ r.partials).filterMap r.job?).mergeSort fun a b =>
    a.requestedAt.notAfter b.requestedAt

/-! Requests -/

def setJob (r : Registry) (i : Nat) (change : ReportJob → ReportJob) : Registry :=
  { r with tasks := r.tasks.modify i fun task => { task with job := change task.job } }

/-- The job's task begins, unless no tasks are taken any more. -/
def launch (r : Registry) (i : Nat) (m : Moment) : Except ReportFault Nat × Registry :=
  match r.group.spawn? r.isEnded i with
  | some group => (.ok i, { r with group })
  | none =>
    let r := r.setJob i (·.failed "coordinator shutting down" m.wall)
    (.error .closed,
      { r with tasks := r.tasks.modify i fun task => { task with phase := .ended } })

def append (r : Registry) (run : Run) (job : ReportJob) : Registry :=
  { r with tasks := r.tasks ++ [⟨run, job, .fresh, "", false, none⟩] }

/-- Asks for the report of a finished run: the place of the job that it has or gets. -/
def request (r : Registry) (run : Run) (id : JobId) (m : Moment) :
    Except ReportFault Nat × Registry :=
  match RunId.parse run.id with
  | .error fault => (.error (.invalid fault), r)
  | .ok runId =>
    if !run.isFinished then (.error (.notFinished runId.text run.state), r)
    else
      let holder := (r.trackedTask? runId.text).filter fun i =>
        ((r.job? i).map (·.state.holdsRun)).getD false
      match holder with
      | some i => (.ok i, r)
      | none =>
        let i := r.tasks.length
        let r := r.append run (.queued id runId.text false m.wall)
        { r with tracked := Table.put runId.text i r.tracked }.launch i m

def hasEnded (r : Registry) (i : Nat) : Bool :=
  ((r.job? i).map (·.state.isTerminal)).getD false

/-- Partial jobs in the order they were asked for. -/
def byAge (r : Registry) (is : List Nat) : List Nat :=
  is.mergeSort fun i j =>
    match r.job? i, r.job? j with
    | some a, some b => a.requestedAt.notAfter b.requestedAt
    | _, _ => true

/-- Forgets the oldest partial jobs that have ended, as many as it takes to have room for one. -/
def prune (r : Registry) : Registry :=
  let ended := r.byAge (r.partials.filter r.hasEnded)
  let dropped := ended.take (ended.length + 1 - keptPartials)
  { r with partials := r.partials.filter (· ∉ dropped) }

/-- Asks for a report of a run as it is. -/
def requestPartial (r : Registry) (run : Run) (id : JobId) (m : Moment) :
    Except ReportFault Nat × Registry :=
  match RunId.parse run.id with
  | .error fault => (.error (.invalid fault), r)
  | .ok runId =>
    let i := r.tasks.length
    let r := (r.prune).append run (.queued id runId.text (!run.isFinished) m.wall)
    { r with partials := r.partials ++ [i] }.launch i m

/-! Tasks -/

def fileName (runId : String) (now : Instant) (isPartial : Bool) : String :=
  "report_" ++ runId ++ "_" ++ now.stamp ++ (if isPartial then "_partial" else "") ++ ".pdf"

def detectionDisabled : Detections := .unavailable "detection correlation disabled"

def setPhase (r : Registry) (i : Nat) (phase : ReportPhase) : Registry :=
  { r with tasks := r.tasks.modify i fun task => { task with phase } }

def setWorker (r : Registry) (i : Nat) (worker : Worker) : Registry :=
  { r with tasks := r.tasks.modify i fun task => { task with worker := some worker } }

def phase? (r : Registry) (i : Nat) : Option ReportPhase := (r.tasks[i]?).map (·.phase)

/-- A task that has its place in the pool puts a worker to work. -/
def employ (r : Registry) (i : Nat) (detections : Detections) (deadline : Nat) : Registry :=
  ((r.setJob i (·.rendering)).setPhase i (.rendering deadline)).setWorker i (.drawing detections)

/-- With its detections known, the task decides on its output and gets in line for a worker. -/
def enlist (r : Registry) (i : Nat) (detections : Detections) (m : Moment) : Registry :=
  match r.tasks[i]? with
  | none => r
  | some task =>
    let name := fileName task.job.runId m.wall task.job.isPartial
    let path := Path.join r.settings.directory name
    let deadline := m.timer + r.settings.deadline
    let r := { r with
      pool := r.pool.ask i
      tasks := r.tasks.modify i fun task => { task with path } }
    if r.pool.holds i then r.employ i detections deadline
    else r.setPhase i (.waiting detections deadline)

/-- A new task asks for detections, where these are wanted. -/
def begin (r : Registry) (c : Option Correlation) (i : Nat) (m : Moment) :
    Registry × Option Correlation :=
  match r.tasks[i]?, c with
  | some ⟨_, _, .fresh, _, _, _⟩, none => (r.enlist i detectionDisabled m, none)
  | some ⟨run, _, .fresh, _, _, _⟩, some c =>
    match c.ask run m with
    | (.ok query, c) => (r.setPhase i (.asking query), some c)
    | (.error detections, c) => (r.enlist i detections m, some c)
  | _, c => (r, c)

/-- The store answers a task's query. -/
def answered (r : Registry) (c : Option Correlation) (i : Nat)
    (answer : Except RemoteFault (List Evidence)) (m : Moment) : Registry × Option Correlation :=
  match r.tasks[i]?, c with
  | some ⟨run, _, .asking query, _, _, _⟩, some c =>
    let (detections, c) := c.answered run query answer m
    (r.enlist i detections m, some c)
  | _, c => (r, c)

/-- The time for a task's query is over. -/
def queryExpired (r : Registry) (c : Option Correlation) (i : Nat) (m : Moment) :
    Registry × Option Correlation :=
  match r.phase? i, c with
  | some (.asking query), some c =>
    if query.deadline ≤ m.timer then
      let (detections, c) := c.expired query m
      (r.enlist i detections m, some c)
    else (r, some c)
  | _, c => (r, c)

/-- A waiting task notices that it has a place in the pool. -/
def notice (r : Registry) (i : Nat) : Registry :=
  match r.phase? i with
  | some (.waiting detections deadline) =>
    if r.pool.holds i then r.employ i detections deadline else r
  | _ => r

/-- The deadline ends the task's wait: it flags its worker, if it has one, and leaves the line if
it has none. -/
def expire (r : Registry) (i : Nat) (m : Moment) : Registry :=
  let giveUp (r : Registry) : Registry :=
    { r with tasks := r.tasks.modify i fun task =>
      { task with abandoned := true, phase := .discarding } }
  match r.phase? i with
  | some (.waiting _ deadline) =>
    if deadline ≤ m.timer then giveUp { r with pool := r.pool.leave i } else r
  | some (.rendering deadline) => if deadline ≤ m.timer then giveUp r else r
  | _ => r

/-- Removes what the worker may have written by now; whether that succeeds makes no difference. -/
def discard {σ : Type} [FileStore σ] (r : Registry) (i : Nat) (files : σ) : Registry × σ :=
  match r.tasks[i]? with
  | some ⟨_, _, .discarding, path, _, _⟩ =>
    (r.setPhase i .discarded, (FileStore.remove path files).2)
  | _ => (r, files)

/-- With its output out of the way, the job is marked as out of time. -/
def mark (r : Registry) (i : Nat) (m : Moment) : Registry :=
  match r.phase? i with
  | some .discarded =>
    let message := "rendering exceeded " ++ toString (r.settings.deadline / 1000) ++ "s"
    (r.setJob i (·.timedOut message m.wall)).setPhase i .ended
  | _ => r

/-- The task takes note of its worker's return. -/
def finish (r : Registry) (i : Nat) (m : Moment) : Registry :=
  match r.tasks[i]? with
  | some ⟨_, _, .rendering _, path, _, some (.returned result)⟩ =>
    let r := r.setPhase i .ended
    match result with
    | .ok () => r.setJob i (·.done path m.wall)
    | .error fault => r.setJob i (·.failed fault.message m.wall)
  | _ => r

/-! Workers -/

/-- A worker returns, and its place in the pool is free. -/
def returns (r : Registry) (i : Nat) (result : Except RenderFault Unit) : Registry :=
  { r with pool := r.pool.release i }.setWorker i (.returned result)

/-- A call to the file system either goes well or sends the worker back. -/
def afterFile (r : Registry) (i : Nat) (answer : FileAnswer) (next : Registry → Registry) :
    Registry :=
  match answer with
  | .ok => next r
  | .fault fault => r.returns i (.error (.file fault))
  | .crashed message => r.returns i (.error (.crashed (crashReport i message)))

/-- The next step of a worker. Drawing may be made to go wrong. -/
def work {σ : Type} [FileStore σ] (r : Registry) (i : Nat) (trouble : Option DrawingTrouble)
    (m : Moment) (files : σ) : Registry × σ :=
  match r.tasks[i]? with
  | some ⟨run, _, _, path, abandoned, some worker⟩ =>
    match worker with
    | .drawing detections =>
      match trouble with
      | none =>
        (r.setWorker i (.checking (Pdf.render r.settings.company run detections m.wall)), files)
      | some (.failing detail) => (r.returns i (.error (.drawing detail)), files)
      | some (.crashing message) =>
        (r.returns i (.error (.crashed (crashReport i message))), files)
    | .checking pdf =>
      (if abandoned then r.returns i (.error .abandoned) else r.setWorker i (.preparing pdf), files)
    | .preparing pdf =>
      let (answer, files) := FileStore.createDirectories r.settings.directory files
      (r.afterFile i answer (·.setWorker i (.writing pdf)), files)
    | .writing pdf =>
      let (answer, files) := FileStore.write path (.document pdf) files
      (r.afterFile i answer (·.setWorker i .rechecking), files)
    | .rechecking =>
      (if abandoned then r.setWorker i .removing else r.returns i (.ok ()), files)
    | .removing =>
      let (answer, files) := FileStore.remove path files
      (r.afterFile i answer (·.returns i (.error .abandoned)), files)
    | .returned _ => (r, files)
  | _ => (r, files)

/-! Shutting down -/

def close (r : Registry) : Registry := { r with group := r.group.close }

def drain (r : Registry) : Registry := { r with group := r.group.drain }

end Registry
end AfterAction
