/-!
What can go wrong between this program and the engine or the store.
-/

namespace AfterAction

inductive RemoteFault
  /-- The request never got an answer. -/
  | unsent (detail : String)
  /-- The answer's status is no success. -/
  | refused (status : Nat) (body : String)
  | unreadable (detail : String)
  | notFound (what : String)
  | misconfigured (detail : String)
  deriving DecidableEq, Repr

namespace RemoteFault

def message : RemoteFault → String
  | .unsent detail => "HTTP request failed: " ++ detail
  | .refused status body => "API error (status " ++ toString status ++ "): " ++ body
  | .unreadable detail => "Failed to parse response: " ++ detail
  | .notFound what => "Resource not found: " ++ what
  | .misconfigured detail => "Invalid client configuration: " ++ detail

def isNotFound : RemoteFault → Bool
  | .notFound _ | .refused 404 _ => true
  | _ => false

def isClientFault : RemoteFault → Bool
  | .refused status _ => 400 ≤ status && status < 500
  | _ => false

def isServerFault : RemoteFault → Bool
  | .refused status _ => 500 ≤ status
  | _ => false

/-- The same request may succeed later: no answer, too many requests, or the remote's own fault. -/
def isRetryable : RemoteFault → Bool
  | .unsent _ => true
  | .refused status _ => status == 429 || 500 ≤ status
  | _ => false

end RemoteFault
end AfterAction
