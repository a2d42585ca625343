import AfterAction.Evidence
import AfterAction.Remote.Fault
import AfterAction.Run

/-!
Scripts: what the engine, the store and the renderer do in a rehearsal.
-/

namespace AfterAction

/-- One reply of the store, after a delay in milliseconds. -/
structure Reply (α : Type) where
  delay : Nat
  answer : Except RemoteFault α

/-- The next of a row of replies. The last one is repeated for ever; where there is none, the
stand-in comes at once. -/
def Reply.next {α : Type} (standIn : α) : List (Reply α) → Reply α × List (Reply α)
  | [] => (⟨0, .ok standIn⟩, [])
  | [last] => (last, [last])
  | first :: rest => (first, rest)

/-- How drawing goes for a run. -/
inductive DrawingMode
  | well
  | failing
  | crashing
  /-- The worker is stuck before it draws. -/
  | held
  /-- The worker draws, and is stuck before it writes. -/
  | heldWriting
  deriving DecidableEq, Repr

structure Script where
  /-- To each write, with the document's id where it is not the run's. -/
  puts : List (Reply (Option String))
  /-- To each detection query. -/
  searches : List (Reply (List Evidence))
  /-- The engine's answer for each run id it has one for; the latest first. -/
  runs : List (String × Except RemoteFault Run)
  drawing : List (String × DrawingMode)

namespace Script

def empty : Script := ⟨[], [], [], []⟩

def run (s : Script) (id : RunId) : Except RemoteFault Run :=
  (s.runs.lookup id.text).getD (.error (.notFound ("run " ++ id.text)))

def modeOf (s : Script) (runId : String) : DrawingMode := (s.drawing.lookup runId).getD .well

end Script
end AfterAction
