import AfterAction.Json.Shape
import AfterAction.Remote.Fault
import AfterAction.Remote.Url

/-!
Requests and answers, apart from any socket: a request is a value, and so is what came back.
-/

namespace AfterAction

inductive Method
  | get
  | put
  | post
  deriving DecidableEq, Repr

def Method.name : Method → String
  | .get => "GET"
  | .put => "PUT"
  | .post => "POST"

structure Request where
  method : Method
  url : String
  /-- Names in lower case. -/
  headers : List (String × String)
  body : Option Json
  deriving Repr

structure Answer where
  status : Nat
  body : String
  deriving DecidableEq, Repr

namespace Request

/-- Controls other than the tab cannot stand in a header. -/
def headerSafe (value : String) : Bool :=
  value.toList.all fun c => c == '\t' || (0x20 ≤ c.toNat && c.toNat != 0x7F)

/-- The request can be put on the wire. -/
def sendable (r : Request) : Bool :=
  (Url.parse? r.url).isSome && r.headers.all fun h => headerSafe h.2

/-- What its first line asks for. -/
def target (r : Request) : String := ((Url.parse? r.url).map Url.target).getD ""

/-- The headers as they are sent. A login in the URL counts where the request has none itself. -/
def sentHeaders (r : Request) : List (String × String) :=
  if r.headers.any (·.1 == "authorization") then r.headers
  else
    match (Url.parse? r.url).bind Url.authorization? with
    | some value => ("authorization", value) :: r.headers
    | none => r.headers

/-- A request with a body says what the body is. -/
def withJson (r : Request) (body : Json) : Request :=
  { r with headers := r.headers ++ [("content-type", "application/json")], body := some body }

end Request

namespace Answer

def isSuccess (a : Answer) : Bool := 200 ≤ a.status && a.status < 300

/-- The body as plain text, without a byte order mark at its front. -/
def text (a : Answer) : String :=
  match a.body.toList with
  | '\ufeff' :: rest => .ofList rest
  | _ => a.body

/-- The value in the body of a successful answer. -/
def read {α : Type} (decoder : Json.Decoder α) (a : Answer) : Except RemoteFault α :=
  if a.isSuccess then
    match Json.decode decoder a.body with
    | .ok value => .ok value
    | .error _ => .error (.unreadable "Failed to parse JSON response: error decoding response body")
  else .error (.refused a.status a.text)

end Answer
end AfterAction
