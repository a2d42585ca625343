import AfterAction.Api.Response
import AfterAction.Files.Memory
import AfterAction.Rehearsal.Script

/-!
Rehearsals: the service on a stage of its own, with scripted remotes, files in memory and a timer
that only moves when everything waits. The parts take turns in a fixed order, each going on until
it has to wait, so a rehearsal always runs the same way.
-/

namespace AfterAction

/-- An answer on its way to a part that waits for it. -/
structure Pending (α : Type) where
  /-- The part's place. -/
  waiter : Nat
  /-- Timer reading of its arrival. -/
  due : Nat
  answer : Except RemoteFault α

structure Rehearsal where
  service : Service MemoryFiles
  script : Script
  /-- In milliseconds. -/
  timer : Nat
  /-- Turns taken, so that no two have the same wall clock reading or random part. -/
  turns : Nat
  writes : List (Pending String)
  queries : List (Pending (List Evidence))
  /-- The store's documents by run id. -/
  stored : List (String × TagDocument)
  /-- Timer readings at the beginning of each write, the latest first. -/
  putTimes : List Nat
  putsAnswered : Nat
  mostInFlight : Nat
  fetches : Nat
  searches : Nat
  /-- Tasks whose worker has begun to draw, the latest first, with what it was given. -/
  drawn : List (Nat × String × Detections)

namespace Rehearsal

def new (service : Service MemoryFiles) : Rehearsal where
  service
  script := .empty
  timer := 0
  turns := 0
  writes := []
  queries := []
  stored := []
  putTimes := []
  putsAnswered := 0
  mostInFlight := 0
  fetches := 0
  searches := 0
  drawn := []

/-- All of a rehearsal happens within one second of the wall clock; the steady clock stands still. -/
def moment (r : Rehearsal) : Moment :=
  ⟨⟨20000, Instant.secondOf 43200, Instant.nanoOf (r.turns % nanosPerSecond)⟩, 0, r.timer⟩

def turn (r : Rehearsal) : Rehearsal := { r with turns := r.turns + 1 }

/-- A fresh identifier. -/
def jobId (r : Rehearsal) : JobId := ⟨BitVec.ofNat 128 r.turns⟩

def suffix (r : Rehearsal) : UInt32 := UInt32.ofNat r.turns

/-! Tag calls -/

/-- A call that has just begun to write gets its reply from the script. -/
def send (r : Rehearsal) (i : Nat) : Rehearsal :=
  match r.service.tagging.calls[i]? with
  | some ⟨document, .writing _⟩ =>
    let (reply, puts) := Reply.next none r.script.puts
    let answer := reply.answer.map (·.getD document.fields.operationId)
    let putTimes := r.timer :: r.putTimes
    { r with
      script := { r.script with puts }
      writes := ⟨i, r.timer + reply.delay, answer⟩ :: r.writes
      putTimes
      mostInFlight := max r.mostInFlight (putTimes.length - r.putsAnswered) }
  | _ => r

/-- The store keeps the last document of each run. -/
def store (r : Rehearsal) (i : Nat) : Rehearsal :=
  match r.service.tagging.calls[i]? with
  | some ⟨document, _⟩ =>
    let id := document.fields.operationId
    { r with stored := (id, document) :: r.stored.filter (·.1 ≠ id) }
  | none => r

def forget (r : Rehearsal) (i : Nat) : Rehearsal :=
  { r with writes := r.writes.filter (·.waiter ≠ i) }

def tagStep (r : Rehearsal) (step : Tagging → Tagging) : Rehearsal :=
  { r with service := r.service.tagged step }

/-- The next step of a tag call; none while it has to wait. -/
def pollCall (r : Rehearsal) (i : Nat) : Option Rehearsal :=
  let m := r.moment
  match r.service.tagging.phase? i with
  | some .waiting =>
    if r.service.tagging.slots.holds i then some ((r.tagStep (·.notice i m)).send i) else none
  | some (.writing a) =>
    match r.writes.find? (·.waiter = i) with
    | some p =>
      if p.due ≤ r.timer then
        let r := (r.forget i).tagStep (·.answered i p.answer m)
        let r := { r with putsAnswered := r.putsAnswered + 1 }
        match p.answer with
        | .ok _ => some (r.store i)
        | .error _ => some r
      else if a.deadline ≤ r.timer then some ((r.forget i).tagStep (·.expire i m))
      else none
    | none => none
  | some (.pausing a wake) =>
    if wake ≤ r.timer then some ((r.tagStep (·.resume i m)).send i)
    else if a.deadline ≤ r.timer then some (r.tagStep (·.expire i m))
    else none
  | some (.keeping _) => some { r with service := r.service.keep i r.suffix m }
  | _ => none

/-! Event tasks -/

def pollEvent (r : Rehearsal) (i : Nat) : Option Rehearsal :=
  match r.service.events[i]? with
  | some ⟨runId, _, .fetching⟩ =>
    let call := r.service.tagging.calls.length
    let r := { r with
      service := r.service.fetched i (r.script.run runId) r.jobId r.moment
      fetches := r.fetches + 1 }
    some (if call < r.service.tagging.calls.length then r.send call else r)
  | _ => none

/-! Report tasks -/

/-- A task that has just begun to ask gets its reply from the script. -/
def query (r : Rehearsal) (i : Nat) : Rehearsal :=
  match r.service.registry.phase? i with
  | some (.asking _) =>
    let (reply, searches) := Reply.next [] r.script.searches
    { r with
      script := { r.script with searches }
      queries := ⟨i, r.timer + reply.delay, reply.answer⟩ :: r.queries
      searches := r.searches + 1 }
  | _ => r

def forgetQuery (r : Rehearsal) (i : Nat) : Rehearsal :=
  { r with queries := r.queries.filter (·.waiter ≠ i) }

def reportStep (r : Rehearsal) (step : Registry → Registry) : Rehearsal :=
  { r with service := r.service.reported step }

def pollReport (r : Rehearsal) (i : Nat) : Option Rehearsal :=
  let m := r.moment
  match r.service.registry.phase? i with
  | some .fresh =>
    some ({ r with service := r.service.correlated (·.begin · i m) }.query i)
  | some (.asking q) =>
    match r.queries.find? (·.waiter = i) with
    | some p =>
      if p.due ≤ r.timer then
        let r := r.forgetQuery i
        some { r with service := r.service.correlated (·.answered · i p.answer m) }
      else if q.deadline ≤ r.timer then
        let r := r.forgetQuery i
        some { r with service := r.service.correlated (·.queryExpired · i m) }
      else none
    | none => none
  | some (.waiting _ deadline) =>
    if r.service.registry.pool.holds i then some (r.reportStep (·.notice i))
    else if deadline ≤ r.timer then some (r.reportStep (·.expire i m))
    else none
  | some (.rendering deadline) =>
    match (r.service.registry.tasks[i]?).bind (·.worker) with
    | some (.returned _) => some (r.reportStep (·.finish i m))
    | _ => if deadline ≤ r.timer then some (r.reportStep (·.expire i m)) else none
  | some .discarding => some { r with service := r.service.filed (·.discard i ·) }
  | some .discarded => some (r.reportStep (·.mark i m))
  | _ => none

/-! Workers -/

/-- What is drawn is noted when drawing begins, also by a worker that is stuck. -/
def noteDrawing (r : Rehearsal) (i : Nat) (runId : String) (d : Detections) : Rehearsal :=
  if r.drawn.any (·.1 = i) then r else { r with drawn := (i, runId, d) :: r.drawn }

def troubleOf : DrawingMode → Option DrawingTrouble
  | .failing => some (.failing "injected failure")
  | .crashing => some (.crashing "renderer exploded")
  | _ => none

/-- The mode holds the worker where it is. -/
def holdsWorker (mode : DrawingMode) (worker : Worker) : Bool :=
  match mode, worker with
  | .held, .drawing _ => true
  | .heldWriting, .writing _ => true
  | _, _ => false

def workerOf? (r : Rehearsal) (i : Nat) : Option (DrawingMode × Worker) := do
  let task ← r.service.registry.tasks[i]?
  let worker ← task.worker
  return (r.script.modeOf task.run.id, worker)

def pollWorker (r : Rehearsal) (i : Nat) : Option Rehearsal := do
  let (mode, worker) ← r.workerOf? i
  let step (r : Rehearsal) : Rehearsal :=
    { r with service := r.service.filed (·.work i (troubleOf mode) r.moment ·) }
  match worker with
  | .returned _ => none
  | .drawing d =>
    let task ← r.service.registry.tasks[i]?
    let noted := r.noteDrawing i task.run.id d
    if holdsWorker mode worker then
      if noted.drawn.length = r.drawn.length then none else some noted
    else some (step noted)
  | _ => if holdsWorker mode worker then none else some (step r)

/-- Some worker is stuck, and the timer does not move by itself. -/
def isHeld (r : Rehearsal) : Bool :=
  (List.range r.service.registry.tasks.length).any fun i =>
    match r.workerOf? i with
    | some (mode, worker) => holdsWorker mode worker
    | none => false

/-! Taking turns -/

inductive Part
  | event (i : Nat)
  | call (i : Nat)
  | report (i : Nat)
  | worker (i : Nat)
  deriving DecidableEq, Repr

def poll (r : Rehearsal) (p : Part) : Option Rehearsal :=
  let r := r.turn
  match p with
  | .event i => r.pollEvent i
  | .call i => r.pollCall i
  | .report i => r.pollReport i
  | .worker i => r.pollWorker i

def parts (r : Rehearsal) : List Part :=
  (List.range r.service.events.length).map .event ++
  (List.range r.service.tagging.calls.length).map .call ++
  (List.range r.service.registry.tasks.length).map .report ++
  (List.range r.service.registry.tasks.length).map .worker

/-- A part goes on until it has to wait; what is left of the turns allowed comes back too. -/
def goOn (p : Part) : Nat → Rehearsal → Nat × Rehearsal
  | 0, r => (0, r)
  | allowed + 1, r =>
    match r.poll p with
    | some r => goOn p allowed r
    | none => (allowed + 1, r)

def round (allowed : Nat) (r : Rehearsal) : Nat × Rehearsal :=
  r.parts.foldl (fun (allowed, r) p => goOn p allowed r) (allowed, r)

/-- Timer readings that something waits for. -/
def alarms (r : Rehearsal) : List Nat :=
  let calls := r.service.tagging.calls.flatMap fun call =>
    match call.phase with
    | .writing a => [a.deadline]
    | .pausing a wake => [a.deadline, wake]
    | _ => []
  let tasks := r.service.registry.tasks.flatMap fun task =>
    match task.phase with
    | .asking q => [q.deadline]
    | .waiting _ deadline => [deadline]
    | .rendering deadline => [deadline]
    | _ => []
  calls ++ tasks ++ r.writes.map (·.due) ++ r.queries.map (·.due)

/-- Moves the timer to the next alarm, where nobody is stuck. -/
def wait? (r : Rehearsal) : Option Rehearsal :=
  if r.isHeld then none
  else (r.alarms.filter (r.timer < ·)).min?.map fun timer => { r with timer }

/-- Rounds until everything rests. A round in which nobody moves lets time pass, as long as there
is something to wait for. -/
def settleWithin : Nat → Nat → Rehearsal → Rehearsal
  | 0, _, r => r
  | rounds + 1, allowed, r =>
    let (left, next) := r.round allowed
    if left = allowed then
      match next.wait? with
      | some next => settleWithin rounds allowed next
      | none => next
    else settleWithin rounds left next

/-- Turns allowed between two actions. -/
def patience : Nat := 10000000

def settle (r : Rehearsal) : Rehearsal := settleWithin patience patience r

end Rehearsal
end AfterAction
