import AfterAction.Operation
import AfterAction.Remote.Exchange

/-!
The emulation engine's side: reading one operation.
-/

namespace AfterAction

structure EngineAccess where
  baseUrl : String
  /-- No key is sent when this is empty. -/
  apiKey : String
  deriving DecidableEq, Repr

namespace EngineAccess

def of (url apiKey : String) : EngineAccess := ⟨Url.trimSlashes url, apiKey⟩

def runRequest (engine : EngineAccess) (id : RunId) : Request where
  method := .get
  url := engine.baseUrl ++ "/api/v2/operations/" ++ id.text
  headers := if engine.apiKey = "" then [] else [("key", engine.apiKey)]
  body := none

/-- The engine forgets runs; an unknown one is told apart from other refusals. -/
def readRun (id : RunId) (answer : Answer) : Except RemoteFault Run :=
  if answer.status = 404 then .error (.notFound ("run " ++ id.text))
  else (answer.read Operation.decoder).map Operation.toRun

end EngineAccess
end AfterAction
