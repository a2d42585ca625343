import AfterAction.Files.Path
import AfterAction.Files.Store
import AfterAction.Json.Writing
import AfterAction.TagDocument

/-!
Fallback records: tag documents that the store did not take, each in a file of its own until an
operator replays it. The file's name holds the time, the run and a random part, so that two records
of one run in one second stay apart.
-/

namespace AfterAction.Fallback

def recordJson (generatedAt : Instant) (d : TagDocument) : Json :=
  .object [("generated_at", Json.ofInstant generatedAt), ("document", d.toJson)]

def recordText (generatedAt : Instant) (d : TagDocument) : String :=
  (recordJson generatedAt d).pretty 0

/-- Eight hexadecimal digits. -/
def suffixText (suffix : UInt32) : String :=
  .ofList (List.replicate (8 - (Nat.toDigits 16 suffix.toNat).length) '0' ++
    Nat.toDigits 16 suffix.toNat)

def fileName (generatedAt : Instant) (runId : String) (suffix : UInt32) : String :=
  "fallback_" ++ generatedAt.stamp ++ "_" ++ runId ++ "_" ++ suffixText suffix ++ ".json"

/-- How keeping a record ends. -/
inductive Kept
  | at (path : String)
  | fault (fault : FileFault)
  | crashed (message : String)
  deriving DecidableEq, Repr

def faultMessage (fault : FileFault) : String :=
  "failed to write fallback record: " ++ fault.message

/-- Writes the record into the directory, which is made first. -/
def keep {σ : Type} [FileStore σ] (directory : String) (now : Instant) (suffix : UInt32)
    (d : TagDocument) (files : σ) : Kept × σ :=
  match FileStore.createDirectories directory files with
  | (.fault fault, files) => (.fault fault, files)
  | (.crashed message, files) => (.crashed message, files)
  | (.ok, files) =>
    let path := Path.join directory (fileName now d.fields.operationId suffix)
    match FileStore.write path (.text (recordText now d)) files with
    | (.fault fault, files) => (.fault fault, files)
    | (.crashed message, files) => (.crashed message, files)
    | (.ok, files) => (.at path, files)

end AfterAction.Fallback
