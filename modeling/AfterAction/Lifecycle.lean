import AfterAction.Run.Wire

/-!
Lifecycle events: what the engine announces about its runs. Delivery is at least once, so an event
may come again.
-/

namespace AfterAction

inductive LifecycleEvent
  | stateChanged (runId : String) (before after : Option RunState)
  | started (runId : String)
  | finished (runId : String)
  deriving DecidableEq, Repr

namespace LifecycleEvent

def runId : LifecycleEvent → String
  | .stateChanged id _ _ => id
  | .started id => id
  | .finished id => id

def kind : LifecycleEvent → String
  | .stateChanged .. => "state_changed"
  | .started _ => "started"
  | .finished _ => "finished"

open Json Field

def toJson (event : LifecycleEvent) : Json :=
  match event with
  | .stateChanged id before after => .object [
      ("event", .string event.kind),
      ("run_id", .string id),
      ("old_state", ofOption (.string ·.name) before),
      ("new_state", ofOption (.string ·.name) after)]
  | .started id | .finished id => .object [("event", .string event.kind), ("run_id", .string id)]

def decoder : Decoder LifecycleEvent :=
  tagged "event" [
    ("state_changed", (Record.of stateChanged
      |>.field (required "run_id" text)
      |>.field (nullable "old_state" (heldChoice RunState.byName))
      |>.field (nullable "new_state" (heldChoice RunState.byName))).heldDecoder),
    ("started", (Record.of started |>.field (required "run_id" text)).heldDecoder),
    ("finished", (Record.of finished |>.field (required "run_id" text)).heldDecoder)]

end LifecycleEvent
end AfterAction
