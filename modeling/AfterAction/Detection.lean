import AfterAction.Json.Shape

/-!
Detections: which executed techniques the monitoring side noticed. An empty list of records says
that the store was asked and knew nothing; `unavailable` says that it could not be asked.
-/

namespace AfterAction

inductive DetectionStatus
  | detected
  | evaded
  | pending
  deriving DecidableEq, Repr

def DetectionStatus.name : DetectionStatus → String
  | .detected => "detected"
  | .evaded => "evaded"
  | .pending => "pending"

/-- The outcome for one technique. -/
structure DetectionRecord where
  techniqueId : String
  status : DetectionStatus
  ruleName : Option String
  alertCount : UInt64
  deriving DecidableEq, Repr

inductive Detections
  | available (records : List DetectionRecord)
  | unavailable (reason : String)
  deriving DecidableEq, Repr

/-- Records by status. -/
structure DetectionSummary where
  detected : Nat
  evaded : Nat
  pending : Nat
  deriving DecidableEq, Repr

namespace DetectionSummary

def total (s : DetectionSummary) : Nat := s.detected + s.evaded + s.pending

end DetectionSummary

namespace Detections

def isAvailable : Detections → Bool
  | .available _ => true
  | .unavailable _ => false

/-- The first record of a technique. -/
def find? (techniqueId : String) : Detections → Option DetectionRecord
  | .available records => records.find? (·.techniqueId = techniqueId)
  | .unavailable _ => none

def summary? : Detections → Option DetectionSummary
  | .available records =>
    let count status := records.countP (·.status = status)
    some ⟨count .detected, count .evaded, count .pending⟩
  | .unavailable _ => none

end Detections

def DetectionStatus.byName : List (String × DetectionStatus) :=
  [("detected", .detected), ("evaded", .evaded), ("pending", .pending)]

open Json Field

def DetectionRecord.toJson (r : DetectionRecord) : Json := .object [
  ("technique_id", .string r.techniqueId),
  ("status", .string r.status.name),
  ("rule_name", ofOption .string r.ruleName),
  ("alert_count", ofNat r.alertCount.toNat)]

/-- Records stand inside a tagged record. -/
def DetectionRecord.record : Record DetectionRecord :=
  Record.of DetectionRecord.mk
    |>.field (required "technique_id" text)
    |>.field (required "status" (heldChoice DetectionStatus.byName))
    |>.field (nullable "rule_name" text)
    |>.field (required "alert_count" count)

def Detections.toJson : Detections → Json
  | .available records => .object [
      ("kind", .string "available"),
      ("records", .array (records.map DetectionRecord.toJson))]
  | .unavailable reason => .object [("kind", .string "unavailable"), ("reason", .string reason)]

def Detections.decoder : Decoder Detections :=
  tagged "kind" [
    ("available", (Record.of available
      |>.field (required "records" (list DetectionRecord.record.heldDecoder))).heldDecoder),
    ("unavailable", (Record.of unavailable |>.field (required "reason" text)).heldDecoder)]

end AfterAction
