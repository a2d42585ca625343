import AfterAction.Breaker
import AfterAction.Crash
import AfterAction.Fallback
import AfterAction.Remote.Fault
import AfterAction.Slots
import AfterAction.Time.Moment

/-!
Tagging: one document for each call, written to the store or kept in a fallback record. A call
waits for a slot, asks the breaker, and then tries the store under one ceiling for all its attempts,
pausing longer and longer between them. Its slot is free again, and the breaker has its result,
before a fallback record is begun.

A call moves in steps, each the work between two of its waits. A step that does not fit the call's
phase changes nothing.
-/

namespace AfterAction

/-- Why a document was kept back. -/
inductive KeptReason
  | breakerOpen
  | timeout
  | storeFault (text : String)
  deriving DecidableEq, Repr

inductive TagOutcome
  | stored (documentId : String)
  | kept (path : String) (reason : KeptReason)
  deriving DecidableEq, Repr

/-- Without an outcome the document is lost, or was never made. -/
inductive TagFault
  | invalid (fault : InvalidRunId)
  | lost (fault : FileFault)
  | interrupted (message : String)
  deriving DecidableEq, Repr

def TagFault.message : TagFault → String
  | .invalid fault => fault.message
  | .lost fault => "document lost: " ++ Fallback.faultMessage fault
  | .interrupted message => "fallback write interrupted: " ++ message

namespace KeptReason

def toJson : KeptReason → Json
  | .breakerOpen => .object [("kind", .string "breaker_open")]
  | .timeout => .object [("kind", .string "timeout")]
  | .storeFault text => .object [("kind", .string "store_error"), ("detail", .string text)]

end KeptReason

def TagOutcome.toJson : TagOutcome → Json
  | .stored id => .object [("destination", .string "sent_to_store"), ("document_id", .string id)]
  | .kept path reason => .object [
      ("destination", .string "sent_to_fallback"), ("path", .string path),
      ("reason", reason.toJson)]

structure TagSettings where
  /-- Calls that may write at the same time. -/
  concurrency : Nat
  /-- Milliseconds for all attempts of a call. -/
  ceiling : Nat
  maxRetries : Nat
  limits : TagLimits
  fallbackDirectory : String
  deriving DecidableEq, Repr

/-- Milliseconds before the first retry, and before any. -/
def firstPause : Nat := 250

def longestPause : Nat := 5000

/-- What a call carries through its attempts. -/
structure Attempt where
  admission : Admission
  /-- Failed attempts that were retried. -/
  retries : Nat
  /-- The pause before the next retry. -/
  pause : Nat
  /-- Timer reading of the ceiling. -/
  deadline : Nat
  deriving DecidableEq, Repr

inductive TagPhase
  /-- For a slot. -/
  | waiting
  /-- A write is under way. -/
  | writing (attempt : Attempt)
  /-- Between two writes, until the timer reads `wake`. -/
  | pausing (attempt : Attempt) (wake : Nat)
  /-- The fallback record is under way. -/
  | keeping (reason : KeptReason)
  | ended (result : Except TagFault TagOutcome)

structure TagCall where
  document : TagDocument
  phase : TagPhase

def TagCall.result? (call : TagCall) : Option (Except TagFault TagOutcome) :=
  match call.phase with
  | .ended result => some result
  | _ => none

structure Tagging where
  settings : TagSettings
  breaker : Breaker
  /-- Calls are known by their place in the list of calls. -/
  slots : Slots Nat
  calls : List TagCall

namespace Tagging

def new (settings : TagSettings) (breaker : Breaker) : Tagging :=
  ⟨settings, breaker, Slots.new settings.concurrency, []⟩

def setPhase (t : Tagging) (i : Nat) (phase : TagPhase) : Tagging :=
  { t with calls := t.calls.modify i fun call => { call with phase } }

def phase? (t : Tagging) (i : Nat) : Option TagPhase := (t.calls[i]?).map (·.phase)

def release (t : Tagging) (i : Nat) : Tagging := { t with slots := t.slots.release i }

/-- A call that holds a slot asks the breaker, and begins to write if it may. -/
def enter (t : Tagging) (i : Nat) (m : Moment) : Tagging :=
  match t.breaker.admit? m.steady with
  | some (admission, breaker) =>
    { t with breaker }.setPhase i
      (.writing ⟨admission, 0, firstPause, m.timer + t.settings.ceiling⟩)
  | none => (t.release i).setPhase i (.keeping .breakerOpen)

/-- A call begins for a run. Only a malformed run id refuses it, and then nothing is touched. -/
def start (t : Tagging) (run : Run) (m : Moment) : Except InvalidRunId (Nat × Tagging) := do
  let document ← TagDocument.ofRun t.settings.limits m.wall run
  let i := t.calls.length
  let slots := t.slots.ask i
  let t := { t with slots, calls := t.calls ++ [⟨document, .waiting⟩] }
  return (i, if slots.holds i then t.enter i m else t)

/-- A waiting call notices that it holds a slot. -/
def notice (t : Tagging) (i : Nat) (m : Moment) : Tagging :=
  match t.phase? i with
  | some .waiting => if t.slots.holds i then t.enter i m else t
  | _ => t

/-- The call gives its slot and its admission back after a failure and keeps its document. -/
def divert (t : Tagging) (i : Nat) (a : Attempt) (reason : KeptReason) (m : Moment) : Tagging :=
  let t := t.release i
  { t with breaker := t.breaker.failed a.admission m.steady }.setPhase i (.keeping reason)

/-- The store answers a write. -/
def answered (t : Tagging) (i : Nat) (answer : Except RemoteFault String) (m : Moment) :
    Tagging :=
  match t.phase? i, answer with
  | some (.writing a), .ok id =>
    let t := t.release i
    { t with breaker := t.breaker.succeeded a.admission }.setPhase i (.ended (.ok (.stored id)))
  | some (.writing a), .error fault =>
    if fault.isRetryable && a.retries < t.settings.maxRetries then
      t.setPhase i (.pausing
        { a with retries := a.retries + 1, pause := min (2 * a.pause) longestPause }
        (m.timer + a.pause))
    else t.divert i a (.storeFault fault.message) m
  | _, _ => t

/-- The pause is over and the document is written once more. -/
def resume (t : Tagging) (i : Nat) (m : Moment) : Tagging :=
  match t.phase? i with
  | some (.pausing a wake) => if wake ≤ m.timer then t.setPhase i (.writing a) else t
  | _ => t

/-- The ceiling ends the attempts, whether a write is under way or not. -/
def expire (t : Tagging) (i : Nat) (m : Moment) : Tagging :=
  match t.phase? i with
  | some (.writing a) | some (.pausing a _) =>
    if a.deadline ≤ m.timer then t.divert i a .timeout m else t
  | _ => t

/-- How a call ends once its record was kept, or not. -/
def conclude (i : Nat) (reason : KeptReason) : Fallback.Kept → Except TagFault TagOutcome
  | .at path => .ok (.kept path reason)
  | .fault fault => .error (.lost fault)
  | .crashed message => .error (.interrupted (crashReport i message))

/-- The fallback record is written. -/
def keep {σ : Type} [FileStore σ] (t : Tagging) (i : Nat) (suffix : UInt32) (m : Moment)
    (files : σ) : Tagging × σ :=
  match t.calls[i]? with
  | some ⟨document, .keeping reason⟩ =>
    let (kept, files) := Fallback.keep t.settings.fallbackDirectory m.wall suffix document files
    (t.setPhase i (.ended (conclude i reason kept)), files)
  | _ => (t, files)

end Tagging
end AfterAction
