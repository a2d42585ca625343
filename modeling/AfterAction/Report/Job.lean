import AfterAction.Run.Wire

/-!
Report jobs: one document-generation task for a run, from its request to its end.
-/

namespace AfterAction

/-- A 128-bit identifier. -/
structure JobId where
  bits : BitVec 128
  deriving DecidableEq, Repr

namespace JobId

def hexPadded (width n : Nat) : List Char :=
  let digits := Nat.toDigits 16 n
  List.replicate (width - digits.length) '0' ++ digits

/-- Where the hyphens of the written form stand. -/
def groups : List Nat := [8, 4, 4, 4, 12]

def splitGroups : List Nat → List Char → List (List Char)
  | [], _ => []
  | n :: rest, cs => cs.take n :: splitGroups rest (cs.drop n)

def text (id : JobId) : String :=
  .ofList (List.intercalate ['-'] (splitGroups groups (hexPadded 32 id.bits.toNat)))

/-- 32 hexadecimal digits in either case. -/
def ofHex? (cs : List Char) : Option JobId := do
  if cs.length ≠ 32 then none
  let value ← cs.foldlM (fun acc c => return acc * 16 + (← Text.hexDigit? c)) 0
  return ⟨BitVec.ofNat 128 value⟩

def ofHyphenated? (cs : List Char) : Option JobId :=
  match cs.splitOn '-' with
  | [a, b, c, d, e] =>
    if [a, b, c, d, e].map List.length = groups then ofHex? (a ++ b ++ c ++ d ++ e) else none
  | _ => none

/-- With or without hyphens; the hyphenated form may stand in braces or behind its scheme, in
either case. -/
def parse? (raw : String) : Option JobId :=
  let cs := raw.toList
  let scheme := "urn:uuid:".toList
  if cs.length = 32 then ofHex? cs
  else if cs.length = 38 ∧ cs.head? = some '\x7b' ∧ cs.getLast? = some '\x7d' then
    ofHyphenated? (cs.drop 1).dropLast
  else if cs.length = 45 ∧ (cs.take scheme.length).map Char.toLower = scheme then
    ofHyphenated? (cs.drop scheme.length)
  else ofHyphenated? cs

end JobId

inductive JobState
  | queued
  | rendering
  | done
  | failed
  | timedOut
  deriving DecidableEq, Repr

namespace JobState

def name : JobState → String
  | .queued => "queued"
  | .rendering => "rendering"
  | .done => "done"
  | .failed => "failed"
  | .timedOut => "timed_out"

def byName : List (String × JobState) :=
  [("queued", .queued), ("rendering", .rendering), ("done", .done), ("failed", .failed),
    ("timed_out", .timedOut)]

/-- Nothing follows. -/
def isTerminal : JobState → Bool
  | .done | .failed | .timedOut => true
  | _ => false

/-- The job owns its run: a further request for the run joins it. A failed job or one that ran
out of time has given its run up. -/
def holdsRun : JobState → Bool
  | .queued | .rendering | .done => true
  | _ => false

end JobState

structure ReportJob where
  id : JobId
  runId : String
  state : JobState
  /-- Rendered from a run that had not finished. -/
  isPartial : Bool
  requestedAt : Instant
  finishedAt : Option Instant
  output : Option String
  error : Option String
  deriving DecidableEq, Repr

namespace ReportJob

def queued (id : JobId) (runId : String) (isPartial : Bool) (now : Instant) : ReportJob :=
  ⟨id, runId, .queued, isPartial, now, none, none, none⟩

def rendering (job : ReportJob) : ReportJob := { job with state := .rendering }

def done (job : ReportJob) (output : String) (now : Instant) : ReportJob :=
  { job with state := .done, output := some output, finishedAt := some now }

def failed (job : ReportJob) (error : String) (now : Instant) : ReportJob :=
  { job with state := .failed, error := some error, finishedAt := some now }

def timedOut (job : ReportJob) (error : String) (now : Instant) : ReportJob :=
  { job with state := .timedOut, error := some error, finishedAt := some now }

open Json Field

def toJson (job : ReportJob) : Json := .object [
  ("id", .string job.id.text),
  ("run_id", .string job.runId),
  ("state", .string job.state.name),
  ("partial", .bool job.isPartial),
  ("requested_at", ofInstant job.requestedAt),
  ("finished_at", ofOption ofInstant job.finishedAt),
  ("output", ofOption .string job.output),
  ("error", ofOption .string job.error)]

def jobId : Decoder JobId := fun v => do
  match JobId.parse? (← text v) with
  | some id => return id
  | none => .error .unfit

def record : Record ReportJob :=
  Record.of ReportJob.mk
    |>.field (required "id" jobId)
    |>.field (required "run_id" text)
    |>.field (required "state" (choice JobState.byName))
    |>.field (required "partial" flag)
    |>.field (required "requested_at" instant)
    |>.field (nullable "finished_at" instant)
    |>.field (nullable "output" text)
    |>.field (nullable "error" text)

end ReportJob
end AfterAction
