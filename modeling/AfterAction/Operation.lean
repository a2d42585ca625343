import AfterAction.Run.Wire

/-!
Operations: runs as the emulation engine reports them. An operation is a chain of links; a link
whose ability the engine does not name is no step.
-/

namespace AfterAction

structure Ability where
  techniqueId : String
  techniqueName : Option String
  tactic : String
  name : Option String
  deriving DecidableEq, Repr

structure Link where
  /-- The engine's status code. -/
  status : Int
  command : String
  output : Option String
  ability : Option Ability
  deriving DecidableEq, Repr

structure Operation where
  id : String
  name : String
  state : String
  start : Option String
  finish : Option String
  group : Option String
  chain : List Link
  deriving DecidableEq, Repr

/-- Code 0 is success; 124 and, on older engines, -2 say that the command ran out of time. -/
def Outcome.ofStatus (status : Int) : Outcome :=
  if status = 0 then .success
  else if status = 124 ∨ status = -2 then .timeout
  else .failure

/-- An operation that the engine is still busy with, in whatever way, is running. -/
def RunState.ofEngine (state : String) : RunState :=
  if state = "finished" then .finished
  else if state ∈ ["running", "paused", "run_one_link", "cleanup", "out_of_time"] then .running
  else .pending

/-- The step of a link; the ability's own name stands in for a missing technique name. -/
def Link.step? (link : Link) : Option Step := do
  let ability ← link.ability
  return {
    techniqueId := ability.techniqueId
    techniqueName := ability.techniqueName <|> ability.name
    tactic := ability.tactic
    outcome := Outcome.ofStatus link.status
    command := link.command
    output := link.output }

namespace Operation

/-- An engine time in the strict form, or in the engine's own. -/
def time? (raw : String) : Option Instant := Time.strict? raw <|> Time.plain? raw

def toRun (op : Operation) : Run where
  id := op.id
  name := op.name
  tenant := op.group.getD ""
  state := RunState.ofEngine op.state
  startedAt := op.start.bind time?
  finishedAt := op.finish.bind time?
  steps := op.chain.filterMap Link.step?

end Operation

open Json Field

namespace Ability

def toJson (a : Ability) : Json := .object [
  ("technique_id", .string a.techniqueId),
  ("technique_name", ofOption .string a.techniqueName),
  ("tactic", .string a.tactic),
  ("name", ofOption .string a.name)]

def record : Record Ability :=
  Record.of Ability.mk
    |>.field (defaulted "technique_id" text "")
    |>.field (defaulted "technique_name" (optional text) none)
    |>.field (defaulted "tactic" text "")
    |>.field (defaulted "name" (optional text) none)

end Ability

namespace Link

def toJson (l : Link) : Json := .object [
  ("status", ofInt l.status),
  ("command", .string l.command),
  ("output", ofOption .string l.output),
  ("ability", ofOption Ability.toJson l.ability)]

def record : Record Link :=
  Record.of Link.mk
    |>.field (defaulted "status" small 0)
    |>.field (defaulted "command" text "")
    |>.field (defaulted "output" (optional text) none)
    |>.field (nullable "ability" Ability.record.decoder)

end Link

namespace Operation

def toJson (op : Operation) : Json := .object [
  ("id", .string op.id),
  ("name", .string op.name),
  ("state", .string op.state),
  ("start", ofOption .string op.start),
  ("finish", ofOption .string op.finish),
  ("group", ofOption .string op.group),
  ("chain", .array (op.chain.map Link.toJson))]

def record : Record Operation :=
  Record.of Operation.mk
    |>.field (required "id" text)
    |>.field (defaulted "name" text "")
    |>.field (defaulted "state" text "")
    |>.field (defaulted "start" (optional text) none)
    |>.field (defaulted "finish" (optional text) none)
    |>.field (defaulted "group" (optional text) none)
    |>.field (defaulted "chain" (list Link.record.decoder) [])

def decoder : Decoder Operation := record.decoder

end Operation
end AfterAction
