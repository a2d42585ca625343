import AfterAction.Detection
import AfterAction.Technique
import AfterAction.Run

/-!
Alert evidence: the store's answer to a detection query, and what it says about a run. The answer
groups the documents of a run by technique; within a technique it counts documents by detection
status and names the rules that fired.
-/

namespace AfterAction

/-- A counted group. -/
structure KeyCount where
  key : String
  count : UInt64
  deriving DecidableEq, Repr

/-- The groups of one technique. -/
structure TechniqueGroup where
  key : String
  count : UInt64
  statuses : List KeyCount
  rules : List KeyCount
  deriving DecidableEq, Repr

/-- The answer of the store, without groups when it made none. -/
structure SearchAnswer where
  groups : Option (List TechniqueGroup)
  deriving DecidableEq, Repr

/-- The evidence for one technique. -/
structure Evidence where
  techniqueId : String
  documentCount : UInt64
  detectedCount : UInt64
  markedEvaded : Bool
  ruleNames : List String
  deriving DecidableEq, Repr

/-- Equal up to the case of ASCII letters. -/
def sameLetters (a b : String) : Bool :=
  a.toList.map Char.toLower = b.toList.map Char.toLower

/-- Two counts together. The sum has 64 bits as well, and where they do not hold it there is none. -/
def addCounts? (a b : UInt64) : Option UInt64 :=
  if a.toNat + b.toNat < UInt64.size then some (a + b) else none

/-- The documents of a group under a status. The additions are checked: at the first that does not
fit, whoever counts crashes. -/
def TechniqueGroup.countOf? (g : TechniqueGroup) (status : String) : Option UInt64 :=
  ((g.statuses.filter fun s => sameLetters s.key status).map (·.count)).foldlM addCounts? 0

namespace Evidence

def ofGroup? (g : TechniqueGroup) : Option Evidence := do
  let detectedCount ← g.countOf? "detected"
  let evadedCount ← g.countOf? "evaded"
  return {
    techniqueId := g.key
    documentCount := g.count
    detectedCount
    markedEvaded := 0 < evadedCount
    ruleNames := g.rules.map (·.key) }

/-- The evidence in an answer, unless reading it out crashes. -/
def ofAnswer? (answer : SearchAnswer) : Option (List Evidence) :=
  (answer.groups.getD []).mapM ofGroup?

/-- Some alert matched the technique. -/
def hasAlert (e : Evidence) : Bool := 0 < e.detectedCount || !e.ruleNames.isEmpty

/-- The last evidence for a technique. -/
def find? (evidence : List Evidence) (techniqueId : String) : Option Evidence :=
  evidence.reverse.find? (·.techniqueId = techniqueId)

/-- Silence after this instant counts as evasion. -/
def deadline? (run : Run) (window : Nat) : Option Instant :=
  run.finishedAt.bind (·.later? (min window Instant.longestSpan))

def windowPassed (run : Run) (window : Nat) (now : Instant) : Bool :=
  match deadline? run window with
  | some deadline => deadline.notAfter now
  | none => false

def statusOf (evidence : Option Evidence) (passed : Bool) : DetectionStatus :=
  match evidence with
  | some e =>
    if e.hasAlert then .detected
    else if e.markedEvaded || passed then .evaded
    else .pending
  | none => if passed then .evaded else .pending

def recordOf (evidence : List Evidence) (passed : Bool) (techniqueId : String) :
    DetectionRecord :=
  let found := find? evidence techniqueId
  { techniqueId
    status := statusOf found passed
    ruleName := found.bind (·.ruleNames.head?)
    alertCount := match found with
      | some e => if e.hasAlert then max e.detectedCount (UInt64.ofNat e.ruleNames.length) else 0
      | none => 0 }

/-- The well-formed technique ids that a run executed, each once, in order. -/
def executed (run : Run) : List String :=
  ((run.steps.map (·.techniqueId)).filter Technique.wellFormed).eraseDups

/-- One record for each executed technique. The window is in nanoseconds. -/
def classify (run : Run) (evidence : List Evidence) (window : Nat) (now : Instant) :
    Detections :=
  .available ((executed run).map (recordOf evidence (windowPassed run window now)))

end Evidence

open Json Field

namespace KeyCount

def toJson (k : KeyCount) : Json :=
  .object [("key", .string k.key), ("doc_count", ofNat k.count.toNat)]

def record : Record KeyCount :=
  Record.of KeyCount.mk |>.field (required "key" text) |>.field (required "doc_count" Json.count)

end KeyCount

/-- Groups stand in a wrapper of their own, which may lack them. -/
def groupsToJson {α : Type} (write : α → Json) (groups : List α) : Json :=
  .object [("buckets", .array (groups.map write))]

def groupsRecord {α : Type} (decoder : Decoder α) : Record (List α) :=
  Record.of id |>.field (defaulted "buckets" (list decoder) [])

namespace TechniqueGroup

def toJson (g : TechniqueGroup) : Json := .object [
  ("key", .string g.key),
  ("doc_count", ofNat g.count.toNat),
  ("detection_status", groupsToJson KeyCount.toJson g.statuses),
  ("rule_names", groupsToJson KeyCount.toJson g.rules)]

def record : Record TechniqueGroup :=
  Record.of TechniqueGroup.mk
    |>.field (required "key" text)
    |>.field (required "doc_count" Json.count)
    |>.field (defaulted "detection_status" (groupsRecord KeyCount.record.decoder).decoder [])
    |>.field (defaulted "rule_names" (groupsRecord KeyCount.record.decoder).decoder [])

end TechniqueGroup

namespace SearchAnswer

def groupingToJson (groups : List TechniqueGroup) : Json :=
  .object [("by_technique", groupsToJson TechniqueGroup.toJson groups)]

def groupingRecord : Record (List TechniqueGroup) :=
  Record.of id
    |>.field (required "by_technique" (groupsRecord TechniqueGroup.record.decoder).decoder)

def toJson (a : SearchAnswer) : Json :=
  .object [("aggregations", ofOption groupingToJson a.groups)]

def record : Record SearchAnswer :=
  Record.of SearchAnswer.mk
    |>.field (defaulted "aggregations" (optional groupingRecord.decoder) none)

def decoder : Decoder SearchAnswer := record.decoder

end SearchAnswer

/-- The store's receipt for a written document. -/
structure IndexReceipt where
  id : String
  index : String
  result : Option String
  deriving DecidableEq, Repr

namespace IndexReceipt

def toJson (r : IndexReceipt) : Json := .object [
  ("_id", .string r.id), ("_index", .string r.index), ("result", ofOption .string r.result)]

def record : Record IndexReceipt :=
  Record.of IndexReceipt.mk
    |>.field (required "_id" text)
    |>.field (required "_index" text)
    |>.field (defaulted "result" (optional text) none)

def decoder : Decoder IndexReceipt := record.decoder

end IndexReceipt
end AfterAction
