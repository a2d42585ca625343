import AfterAction.Json.Shape
import AfterAction.Run
import AfterAction.Time.Reading
import AfterAction.Time.Writing

/-!
Runs on the wire.
-/

namespace AfterAction

def RunState.byName : List (String × RunState) :=
  [("pending", .pending), ("running", .running), ("finished", .finished)]

def Outcome.byName : List (String × Outcome) :=
  [("success", .success), ("failure", .failure), ("timeout", .timeout)]

namespace Json

def ofInstant (t : Instant) : Json := .string t.wireText

/-- Times in the relaxed form. -/
def instant : Decoder Instant
  | .string s => match Time.relaxed? s with
    | some t => .ok t
    | none => .error .unfit
  | v => .error (mismatch v)

def ofRunId (id : RunId) : Json := .string id.text

/-- A text that is a well-formed run id. -/
def runId : Decoder RunId := fun v => do
  match RunId.parse (← text v) with
  | .ok id => return id
  | .error _ => .error .unfit

end Json

open Json Field

namespace Step

def toJson (s : Step) : Json := .object [
  ("technique_id", .string s.techniqueId),
  ("technique_name", ofOption .string s.techniqueName),
  ("tactic", .string s.tactic),
  ("outcome", .string s.outcome.name),
  ("command", .string s.command),
  ("output", ofOption .string s.output)]

def record : Record Step :=
  Record.of Step.mk
    |>.field (required "technique_id" text)
    |>.field (nullable "technique_name" text)
    |>.field (required "tactic" text)
    |>.field (required "outcome" (choice Outcome.byName))
    |>.field (defaulted "command" text "")
    |>.field (nullable "output" text)

end Step

namespace Run

def toJson (run : Run) : Json := .object [
  ("id", .string run.id),
  ("name", .string run.name),
  ("tenant", .string run.tenant),
  ("state", .string run.state.name),
  ("started_at", ofOption ofInstant run.startedAt),
  ("finished_at", ofOption ofInstant run.finishedAt),
  ("steps", .array (run.steps.map Step.toJson))]

def record : Record Run :=
  Record.of Run.mk
    |>.field (required "id" text)
    |>.field (required "name" text)
    |>.field (defaulted "tenant" text "")
    |>.field (required "state" (choice RunState.byName))
    |>.field (nullable "started_at" instant)
    |>.field (nullable "finished_at" instant)
    |>.field (defaulted "steps" (list Step.record.decoder) [])

def decoder : Decoder Run := record.decoder

end Run
end AfterAction
