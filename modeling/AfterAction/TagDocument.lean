import AfterAction.Detection
import AfterAction.Run.Wire
import AfterAction.Tactic
import AfterAction.Technique
import AfterAction.Text.Cleaned

/-!
Tag documents: the note written next to a run's traces in the search store, so that analysts can
tell a simulation from an attack. A document holds ids, cleaned names and counts, never commands
or their output.
-/

namespace AfterAction

inductive Severity
  | low
  | medium
  | high
  deriving DecidableEq, Repr

def Severity.name : Severity → String
  | .low => "low"
  | .medium => "medium"
  | .high => "high"

def Severity.byName : List (String × Severity) :=
  [("low", .low), ("medium", .medium), ("high", .high)]

/-- What the document says about the run. -/
structure TagFields where
  operationId : String
  operationName : String
  /-- The first technique, for filters on one value. -/
  technique : Option String
  techniques : List String
  tactic : Option String
  tactics : List String
  detectionStatus : DetectionStatus
  techniqueCount : UInt64
  status : RunState
  deriving DecidableEq, Repr

structure TagDocument where
  timestamp : Instant
  fields : TagFields
  tags : List String
  exercise : Bool
  clientId : String
  severity : Severity
  autoClose : Bool
  deriving DecidableEq, Repr

namespace TagDocument

/-- As many techniques, and as many tactics, get a tag of their own. -/
def techniqueTagLimit : Nat := 50

def tacticTagLimit : Nat := 20

def tagOf (label : String) : String := "purple_" ++ label

/-- Tags hold no spaces. -/
def underscored (label : String) : String :=
  .ofList (label.toList.map fun c => if c = ' ' then '_' else c)

def tagsOf (techniques tactics : List String) : List String :=
  ["purple_team", "simulation"] ++ (techniques.take techniqueTagLimit).map tagOf ++
    (tactics.take tacticTagLimit).map fun t => tagOf (underscored t)

/-- The document of parts that are clean already. -/
def assemble (now : Instant) (operationId operationName clientId : String) (status : RunState)
    (techniques tactics : List String) : TagDocument where
  timestamp := now
  fields :=
    { operationId
      operationName
      technique := techniques.head?
      techniques
      tactic := tactics.head?
      tactics
      detectionStatus := .pending
      techniqueCount := UInt64.ofNat techniques.length
      status }
  tags := tagsOf techniques tactics
  exercise := true
  clientId
  severity := .low
  autoClose := true

end TagDocument

/-- How much of a run a document may carry. -/
structure TagLimits where
  maxTechniques : Nat
  maxTextLength : Nat
  deriving DecidableEq, Repr

def TagLimits.standard : TagLimits := ⟨500, 256⟩

namespace TagDocument

/-- The document of a run. Only a malformed run id refuses it; malformed techniques and tactics
are left out. -/
def ofRun (limits : TagLimits) (now : Instant) (run : Run) :
    Except InvalidRunId TagDocument := do
  let id ← RunId.parse run.id
  return assemble now id.text
    (Text.cleanOr "Unknown" limits.maxTextLength run.name)
    (Text.cleanOr "unknown" limits.maxTextLength run.tenant)
    run.state
    (Technique.collect (run.steps.map (·.techniqueId)) limits.maxTechniques)
    (Tactic.collect (run.steps.map (·.tactic)))

/-- Only its id can refuse a run. -/
theorem ofRun_cases (limits : TagLimits) (now : Instant) (run : Run) :
    (RunId.wellFormed run.id = false ∧ ofRun limits now run = .error ⟨preview run.id⟩) ∨
    (RunId.wellFormed run.id = true ∧ ∃ document, ofRun limits now run = .ok document) := by
  unfold ofRun RunId.parse
  split
  · rename_i h
    exact .inr ⟨h, _, rfl⟩
  · rename_i h
    exact .inl ⟨Bool.eq_false_iff.mpr h, rfl⟩

open Json Field

def fieldsToJson (f : TagFields) : Json := .object [
  ("operation_id", .string f.operationId),
  ("operation_name", .string f.operationName),
  ("technique", ofOption .string f.technique),
  ("techniques", ofStrings f.techniques),
  ("tactic", ofOption .string f.tactic),
  ("tactics", ofStrings f.tactics),
  ("detection_status", .string f.detectionStatus.name),
  ("technique_count", ofNat f.techniqueCount.toNat),
  ("status", .string f.status.name)]

def toJson (d : TagDocument) : Json := .object [
  ("@timestamp", ofInstant d.timestamp),
  ("purple", fieldsToJson d.fields),
  ("tags", ofStrings d.tags),
  ("purple_team_exercise", .bool d.exercise),
  ("client_id", .string d.clientId),
  ("severity", .string d.severity.name),
  ("auto_close", .bool d.autoClose)]

def fieldsRecord : Record TagFields :=
  Record.of TagFields.mk
    |>.field (required "operation_id" text)
    |>.field (required "operation_name" text)
    |>.field (nullable "technique" text)
    |>.field (required "techniques" (list text))
    |>.field (nullable "tactic" text)
    |>.field (required "tactics" (list text))
    |>.field (required "detection_status" (choice DetectionStatus.byName))
    |>.field (required "technique_count" count)
    |>.field (required "status" (choice RunState.byName))

def record : Record TagDocument :=
  Record.of TagDocument.mk
    |>.field (required "@timestamp" instant)
    |>.field (required "purple" fieldsRecord.decoder)
    |>.field (required "tags" (list text))
    |>.field (required "purple_team_exercise" flag)
    |>.field (required "client_id" text)
    |>.field (required "severity" (choice Severity.byName))
    |>.field (required "auto_close" flag)

end TagDocument
end AfterAction
