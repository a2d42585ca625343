import AfterAction.Detection
import AfterAction.Percent
import AfterAction.Run
import AfterAction.Tactic
import AfterAction.Time.Writing

/-!
The content of a report, before any layout: what a run and its detections say, section by section.
-/

namespace AfterAction

structure RunStatistics where
  total : Nat
  successful : Nat
  failed : Nat
  timedOut : Nat
  deriving DecidableEq, Repr

namespace RunStatistics

def ofSteps (steps : List Step) : RunStatistics :=
  let count (outcome : Outcome) := steps.countP (·.outcome = outcome)
  ⟨steps.length, count .success, count .failure, count .timeout⟩

def successRate (s : RunStatistics) : Binary64 := percent s.successful s.total

end RunStatistics

/-- The steps under one tactic. -/
structure TacticCoverage where
  tactic : String
  steps : Nat
  successful : Nat
  /-- All steps of the run. -/
  total : Nat
  deriving DecidableEq, Repr

namespace TacticCoverage

def share (c : TacticCoverage) : Binary64 := percent c.steps c.total

def ofTactic (steps : List Step) (tactic : String) : TacticCoverage :=
  let mine := steps.filter fun s => Tactic.groupName s.tactic = tactic
  ⟨tactic, mine.length, mine.countP (·.outcome = .success), steps.length⟩

/-- One entry for each tactic: those of the kill chain in its order, then the others in the order
of their first step. -/
def ofSteps (steps : List Step) : List TacticCoverage :=
  (((steps.map fun s => Tactic.groupName s.tactic).eraseDups.map (ofTactic steps))).mergeSort
    fun a b => Tactic.rank a.tactic ≤ Tactic.rank b.tactic

end TacticCoverage

inductive DetectionSection
  | summary (counts : DetectionSummary)
  | unavailable (reason : String)
  deriving DecidableEq, Repr

def DetectionSection.of (detections : Detections) : DetectionSection :=
  match detections with
  | .unavailable reason => .unavailable reason
  | .available _ => .summary (detections.summary?.getD ⟨0, 0, 0⟩)

/-- A row of the technique table. -/
structure TechniqueRow where
  techniqueId : String
  techniqueName : String
  tactic : String
  outcome : Outcome
  detection : String
  deriving DecidableEq, Repr

/-- What a row says about detection: a technique without a record is still pending. -/
def Detections.label (detections : Detections) (techniqueId : String) : String :=
  if detections.isAvailable then
    ((detections.find? techniqueId).map (·.status.name)).getD "pending"
  else "unavailable"

def TechniqueRow.ofStep (detections : Detections) (s : Step) : TechniqueRow :=
  ⟨s.techniqueId, s.techniqueName.getD "-", s.tactic, s.outcome, detections.label s.techniqueId⟩

structure Report where
  title : String
  /-- The run had not finished. -/
  isPartial : Bool
  company : String
  generatedAt : Instant
  metadata : List (String × String)
  statistics : RunStatistics
  coverage : List TacticCoverage
  detection : DetectionSection
  rows : List TechniqueRow
  deriving Repr

namespace Report

def timeText (t : Option Instant) : String := (t.map Instant.displayText).getD "-"

def durationText (run : Run) : String :=
  match run.duration with
  | some nanos =>
    let seconds := nanos.toNat / nanosPerSecond
    toString (seconds / 60) ++ "m " ++ toString (seconds % 60) ++ "s"
  | none => "-"

def metadataOf (run : Run) (generatedAt : Instant) : List (String × String) := [
  ("Operation ID", run.id),
  ("Operation", run.name),
  ("Client", run.tenant),
  ("State", run.state.name),
  ("Started", timeText run.startedAt),
  ("Finished", timeText run.finishedAt),
  ("Duration", durationText run),
  ("Generated", generatedAt.displayText)]

def titleOf (run : Run) : String :=
  "Purple Team Exercise Report: " ++
    if Text.trim run.name = "" then "Unnamed operation" else run.name

def ofRun (run : Run) (detections : Detections) (company : String) (generatedAt : Instant) :
    Report where
  title := titleOf run
  isPartial := run.state ≠ .finished
  company
  generatedAt
  metadata := metadataOf run generatedAt
  statistics := RunStatistics.ofSteps run.steps
  coverage := TacticCoverage.ofSteps run.steps
  detection := DetectionSection.of detections
  rows := run.steps.map (TechniqueRow.ofStep detections)

end Report
end AfterAction
