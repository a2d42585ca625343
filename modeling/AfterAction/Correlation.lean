import AfterAction.Breaker
import AfterAction.Evidence
import AfterAction.Remote.Fault
import AfterAction.Time.Moment

/-!
Correlation: asking the store which techniques of a run were noticed. It never fails; whatever goes
wrong becomes the reason why detections are unavailable.
-/

namespace AfterAction

structure Correlation where
  /-- Milliseconds for one query. -/
  timeout : Nat
  /-- Nanoseconds after a run's end before silence counts as evasion. -/
  window : Nat
  breaker : Breaker
  deriving DecidableEq, Repr

/-- A query under way. -/
structure DetectionQuery where
  runId : RunId
  admission : Admission
  /-- Timer reading of its end. -/
  deadline : Nat
  deriving DecidableEq

namespace Correlation

def circuitOpen : Detections := .unavailable "detection store circuit open"

def failed (fault : RemoteFault) : Detections :=
  .unavailable ("detection query failed: " ++ fault.message)

def timedOut (timeout : Nat) : Detections :=
  .unavailable ("detection query timed out after " ++ toString (timeout / 1000) ++ "s")

/-- Begins a query, unless the run's id is malformed or the breaker refuses. -/
def ask (c : Correlation) (run : Run) (m : Moment) :
    Except Detections DetectionQuery × Correlation :=
  match RunId.parse run.id with
  | .error fault => (.error (.unavailable fault.message), c)
  | .ok id =>
    match c.breaker.admit? m.steady with
    | none => (.error circuitOpen, c)
    | some (admission, breaker) => (.ok ⟨id, admission, m.timer + c.timeout⟩, { c with breaker })

/-- The store answers a query. -/
def answered (c : Correlation) (run : Run) (q : DetectionQuery)
    (answer : Except RemoteFault (List Evidence)) (m : Moment) : Detections × Correlation :=
  match answer with
  | .ok evidence =>
    (Evidence.classify run evidence c.window m.wall,
      { c with breaker := c.breaker.succeeded q.admission })
  | .error fault =>
    (failed fault, { c with breaker := c.breaker.failed q.admission m.steady })

/-- The time for a query is over. -/
def expired (c : Correlation) (q : DetectionQuery) (m : Moment) : Detections × Correlation :=
  (timedOut c.timeout, { c with breaker := c.breaker.failed q.admission m.steady })

end Correlation
end AfterAction
