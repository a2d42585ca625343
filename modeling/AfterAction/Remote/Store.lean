import AfterAction.Evidence
import AfterAction.Remote.Base64
import AfterAction.Remote.Exchange
import AfterAction.TagDocument

/-!
The search store's side: writing a tag document, asking for evidence, and the probe at start-up.
-/

namespace AfterAction

inductive Credentials
  | none
  | apiKey (key : String)
  | basic (user password : String)
  deriving DecidableEq, Repr

namespace Credentials

/-- A key wins over a name and password, of which neither may be missing. -/
def choose (key user password : String) : Credentials :=
  if key ≠ "" then .apiKey key
  else if user ≠ "" ∧ password ≠ "" then .basic user password
  else .none

def headers : Credentials → List (String × String)
  | .none => []
  | .apiKey key => [("authorization", "ApiKey " ++ key)]
  | .basic user password => [("authorization", "Basic " ++ Base64.encode (user ++ ":" ++ password))]

end Credentials

structure StoreAccess where
  baseUrl : String
  credentials : Credentials
  /-- Where tag documents go. -/
  index : String
  /-- Where evidence is looked for. -/
  detectionIndex : String
  /-- Techniques an answer may group. -/
  maxTechniques : Nat
  deriving DecidableEq, Repr

namespace StoreAccess

def location (store : StoreAccess) : String := store.baseUrl ++ "/" ++ store.index

/-- The document's id is its run's id, so a later document replaces an earlier one. -/
def putRequest (store : StoreAccess) (d : TagDocument) : Request :=
  Request.withJson
    ⟨.put, store.baseUrl ++ "/" ++ store.index ++ "/_doc/" ++ d.fields.operationId,
      store.credentials.headers, none⟩ d.toJson

def readPut (answer : Answer) : Except RemoteFault String :=
  (answer.read IndexReceipt.decoder).map (·.id)

open Json in
/-- Documents of one run that name a technique, grouped by technique, with their detection status
and the rules that fired. -/
def detectionQuery (id : RunId) (maxTechniques : Nat) : Json :=
  let terms (field : String) (size : Nat) :=
    Json.object [("field", .string field), ("size", ofNat size)]
  .object [
    ("size", ofNat 0),
    ("query", .object [("bool", .object [("filter", .array [
      .object [("term", .object [("purple.operation_id", .string id.text)])],
      .object [("exists", .object [("field", .string "purple.technique")])]])])]),
    ("aggs", .object [("by_technique", .object [
      ("terms", terms "purple.technique" maxTechniques),
      ("aggs", .object [
        ("detection_status", .object [("terms", terms "purple.detection_status" 10)]),
        ("rule_names", .object [("terms", terms "rule.name" 3)])])])])]

def searchRequest (store : StoreAccess) (id : RunId) : Request :=
  Request.withJson
    ⟨.post, store.baseUrl ++ "/" ++ store.detectionIndex ++ "/_search",
      store.credentials.headers, none⟩ (detectionQuery id store.maxTechniques)

/-- None if the caller crashes over the counts in the answer. -/
def readSearch (answer : Answer) : Option (Except RemoteFault (List Evidence)) :=
  match answer.read SearchAnswer.decoder with
  | .ok found => (Evidence.ofAnswer? found).map .ok
  | .error fault => some (.error fault)

def infoRequest (store : StoreAccess) : Request :=
  ⟨.get, store.baseUrl, store.credentials.headers, none⟩

def readInfo (answer : Answer) : Except RemoteFault Json := answer.read Json.anyValue

end StoreAccess
end AfterAction
