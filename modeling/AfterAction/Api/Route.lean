import AfterAction.Lifecycle
import AfterAction.Text.Escape

/-!
Routes: what a request to the service asks for, and how one that asks for nothing is refused.
-/

namespace AfterAction.Api

/-- A request as it comes in. -/
structure Incoming where
  /-- In capitals. -/
  method : String
  /-- The path with its query, or a whole URL. -/
  target : String
  contentType : Option String
  body : String
  deriving DecidableEq, Repr

/-- A request for a report. -/
structure ReportRequest where
  runId : String
  allowPartial : Bool
  deriving DecidableEq, Repr

inductive Call
  | health
  | status
  | event (event : LifecycleEvent)
  | report (request : ReportRequest)
  | listReports
  | findReport (runId : String)
  | tagTest
  deriving DecidableEq, Repr

/-- Why a request is no call; there is nothing to say about it but its status. -/
inductive Refusal
  | noSuchPath
  | noSuchMethod
  | unreadablePath
  | notJson
  | malformed
  | unfit
  deriving DecidableEq, Repr

def Refusal.status : Refusal → Nat
  | .noSuchPath => 404
  | .noSuchMethod => 405
  | .unreadablePath => 400
  | .notJson => 415
  | .malformed => 400
  | .unfit => 422

/-! Media types -/

def isTokenChar (c : Char) : Bool := c.isAlphanum || "!#$%&'*+-.^_\x60|~".toList.contains c

/-- What follows a quoted value. It holds at least one character, so a quotation mark right at its
start belongs to it. -/
def quotedValue? (cs : List Char) : Option (List Char) :=
  match cs with
  | [] => none
  | first :: cs =>
    let more := cs.takeWhile (· != '"')
    if (first :: more).any fun c => c.toNat < 0x20 || 0x7F ≤ c.toNat then none
    else match cs.drop more.length with
      | _ :: rest => some rest
      | [] => none

/-- Parameters behind a semicolon, or none there. -/
def parametersFit : Nat → List Char → Bool
  | 0, _ => false
  | fuel + 1, cs =>
    let cs := cs.dropWhile (· == ' ')
    let name := cs.takeWhile isTokenChar
    match cs.drop name.length with
    | '=' :: '"' :: rest =>
      name ≠ [] && match quotedValue? rest with
        | none => false
        | some rest =>
          match rest.dropWhile (· == ' ') with
          | [] => true
          | ';' :: rest => parametersFit fuel rest
          | _ => false
    | '=' :: rest =>
      let value := rest.takeWhile isTokenChar
      name ≠ [] && match rest.drop value.length with
        | [] => true
        | ';' :: rest => value ≠ [] && parametersFit fuel rest
        | _ => false
    | _ => cs = []

def sameWord (cs : List Char) (word : String) : Bool := cs.map Char.toLower == word.toList

/-- The last plus of a subtype that does not begin it sets its suffix apart. -/
def splitSuffix (subtype : List Char) : List Char × Option (List Char) :=
  let suffix := (subtype.reverse.takeWhile (· != '+')).reverse
  let front := subtype.take (subtype.length - suffix.length - 1)
  if suffix.length = subtype.length || front = [] then (subtype, none) else (front, some suffix)

/-- The body is said to be of the interchange format, or of one built on it. -/
def isJsonType (contentType : String) : Bool :=
  let cs := contentType.toList
  let kind := cs.takeWhile isTokenChar
  match cs.drop kind.length with
  | '/' :: rest =>
    let subtype := rest.takeWhile isTokenChar
    let (front, suffix) := splitSuffix subtype
    let fits := match rest.drop subtype.length with
      | [] => true
      | ';' :: rest => subtype ≠ [] && parametersFit (rest.length + 1) rest
      | _ => false
    fits && sameWord kind "application" &&
      (sameWord front "json" || match suffix with
        | some suffix => sameWord suffix "json"
        | none => false)
  | _ => false

/-! Paths -/

def isSchemeChar (c : Char) : Bool := c.isAlphanum || c == '+' || c == '-' || c == '.'

def endsPath (c : Char) : Bool := c == '?' || c == '#'

/-- The path of a target, which may stand behind a scheme and a host. A query and a fragment are no
part of it; of any other text there is no path. -/
def pathOf (target : List Char) : List Char :=
  match target with
  | '/' :: _ => target.takeWhile (!endsPath ·)
  | _ =>
    match target.dropWhile isSchemeChar with
    | ':' :: '/' :: '/' :: rest =>
      let host := rest.takeWhile fun c => c != '/' && !endsPath c
      let path := (rest.drop host.length).takeWhile (!endsPath ·)
      if host.isEmpty then [] else if path.isEmpty then ['/'] else path
    | _ => []

/-- The parts of the path, between slashes. -/
def parts (target : String) : List (List Char) := (pathOf target.toList).splitOn '/'

/-! Routing -/

def reportRequest : Json.Record ReportRequest :=
  Json.Record.of ReportRequest.mk
    |>.field (.required "run_id" Json.text)
    |>.field (.defaulted "allow_partial" Json.flag false)

/-- The value in the body of a request. -/
def bodyValue {α : Type} (decoder : Json.Decoder α) (r : Incoming) : Except Refusal α :=
  if !(r.contentType.map isJsonType).getD false then .error .notJson
  else
    match Json.decode decoder r.body with
    | .ok a => .ok a
    | .error .malformed => .error .malformed
    | .error .unfit => .error .unfit

/-- What is asked of a path is also answered without a body. -/
def reads (r : Incoming) : Bool := r.method = "GET" || r.method = "HEAD"

def route (r : Incoming) : Except Refusal Call :=
  match (parts r.target).map String.ofList with
  | ["", "health"] => if reads r then .ok .health else .error .noSuchMethod
  | ["", "api", "status"] => if reads r then .ok .status else .error .noSuchMethod
  | ["", "api", "events"] =>
    if r.method = "POST" then (bodyValue LifecycleEvent.decoder r).map .event
    else .error .noSuchMethod
  | ["", "api", "reports"] =>
    if reads r then .ok .listReports
    else if r.method = "POST" then (bodyValue reportRequest.decoder r).map .report
    else .error .noSuchMethod
  | ["", "api", "reports", part] =>
    if part = "" then .error .noSuchPath
    else if reads r then
      match Escape.unescaped? part.toList with
      | some runId => .ok (.findReport runId)
      | none => .error .unreadablePath
    else .error .noSuchMethod
  | ["", "api", "tag-test"] => if r.method = "POST" then .ok .tagTest else .error .noSuchMethod
  | _ => .error .noSuchPath

end AfterAction.Api
