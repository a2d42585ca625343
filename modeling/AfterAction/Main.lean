import AfterAction.Json.Shape
import AfterAction.Startup

/-!
The command line: starts the service from the environment and stops it at the end of the input. The
network is outside. The first line of the input is the store's answer to the probe at start-up, an
object with a status and a body; without one the store counts as not reachable.
-/

namespace AfterAction.CommandLine

def readAnswer (line : String) : Option Answer :=
  match (Json.decode Json.anyValue line).toOption with
  | some v =>
    match v.get? "status", v.get? "body" with
    | some (.number (.int status)), some (.string body) => some ⟨status.toNat, body⟩
    | _, _ => none
  | none => none

def printLine (line : LogLine) : IO Unit :=
  IO.println ((if line.isWarning then "WARN " else "INFO ") ++ line.shown)

def names : List String := [
  "PURPLE_LISTEN_ADDR", "PURPLE_ENGINE_URL", "PURPLE_ENGINE_API_KEY", "PURPLE_STORE_URL",
  "PURPLE_STORE_INDEX", "PURPLE_DETECTION_INDEX", "PURPLE_STORE_API_KEY", "PURPLE_STORE_USER",
  "PURPLE_STORE_PASSWORD", "PURPLE_STORE_VERIFY_TLS", "PURPLE_CONNECT_TIMEOUT",
  "PURPLE_STORE_TIMEOUT", "PURPLE_STORE_MAX_RETRIES", "PURPLE_BREAKER_THRESHOLD",
  "PURPLE_BREAKER_RESET", "PURPLE_TAG_CONCURRENCY", "PURPLE_REPORT_WORKERS",
  "PURPLE_REPORT_TIMEOUT", "PURPLE_FALLBACK_DIR", "PURPLE_REPORT_DIR", "PURPLE_MAX_TECHNIQUES",
  "PURPLE_DETECTION_ENABLED", "PURPLE_DETECTION_TIMEOUT", "PURPLE_EVASION_WINDOW",
  "PURPLE_COMPANY_NAME"]

partial def untilEnd (input : IO.FS.Stream) : IO Unit := do
  unless (← input.getLine).isEmpty do untilEnd input

end AfterAction.CommandLine

open AfterAction AfterAction.CommandLine

def main : IO UInt32 := do
  let input ← IO.getStdin
  let values ← names.mapM fun name => return (name, ← IO.getEnv name)
  let settings := Settings.read fun name => (values.lookup name).join
  let (lines, fault) := Startup.start settings (readAnswer (← input.getLine))
  lines.forM printLine
  match fault with
  | some fault =>
    fault.report.forM fun line => IO.eprintln line
    return fault.code
  | none =>
    untilEnd input
    Startup.shutdown.forM printLine
    return 0
