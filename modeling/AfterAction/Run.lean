import AfterAction.RunId
import AfterAction.Time.Instant

/-!
Runs: snapshots of one execution of an emulation campaign. The engine owns the run; nothing here
changes one.
-/

namespace AfterAction

inductive RunState
  | pending
  | running
  | finished
  deriving DecidableEq, Repr

def RunState.name : RunState → String
  | .pending => "pending"
  | .running => "running"
  | .finished => "finished"

inductive Outcome
  | success
  | failure
  | timeout
  deriving DecidableEq, Repr

def Outcome.name : Outcome → String
  | .success => "success"
  | .failure => "failure"
  | .timeout => "timeout"

/-- One executed technique. -/
structure Step where
  techniqueId : String
  techniqueName : Option String
  tactic : String
  outcome : Outcome
  command : String
  output : Option String
  deriving DecidableEq, Repr

structure Run where
  /-- As the engine reports it; see `RunId.parse`. -/
  id : String
  name : String
  /-- The client the campaign was run against. -/
  tenant : String
  state : RunState
  startedAt : Option Instant
  finishedAt : Option Instant
  steps : List Step
  deriving DecidableEq, Repr

namespace Run

def isFinished (run : Run) : Bool := run.state = .finished

/-- Nanoseconds from start to finish, when both are known and in this order. From inside a leap
second into the next day they can come out below zero, by less than a second. -/
def duration (run : Run) : Option Int :=
  match run.startedAt, run.finishedAt with
  | some start, some finish =>
    if start.notAfter finish then some (start.nanosBetween finish) else none
  | _, _ => none

end Run
end AfterAction
