import AfterAction.Service
import AfterAction.Settings

/-!
Start-up and shutdown: from the settings to a service that listens, with the log of the way there,
and the reasons why the way ends early.
-/

namespace AfterAction

structure LogLine where
  /-- Not only for information. -/
  isWarning : Bool
  text : String
  deriving DecidableEq, Repr

namespace LogLine

def info (text : String) : LogLine := ⟨false, text⟩

def warning (text : String) : LogLine := ⟨true, text⟩

/-- Characters that could steer a terminal are told by their codes. Line ends and tabs are not among
them. -/
def shownChar (c : Char) : List Char :=
  match c with
  | '\x1b' => "\\x1b".toList
  | '\x07' => "\\x07".toList
  | '\x08' => "\\x08".toList
  | '\x0c' => "\\x0c".toList
  | '\x7f' => "\\x7f".toList
  | c =>
    if 0x80 ≤ c.toNat && c.toNat ≤ 0x9F then
      "\\u\x7b".toList ++ Text.hexDigits c.toNat ++ ['\x7d']
    else [c]

/-- The text as it is logged. -/
def shown (line : LogLine) : String := .ofList (line.text.toList.flatMap shownChar)

end LogLine

/-- Seconds in the units of the timer and of the steady clock. -/
def milliseconds (seconds : UInt64) : Nat := seconds.toNat * 1000

def nanoseconds (seconds : UInt64) : Nat := seconds.toNat * nanosPerSecond

namespace Settings

def breaker (s : Settings) : Breaker :=
  .new s.breakerThreshold.toNat (nanoseconds s.breakerReset)

def tagging (s : Settings) : TagSettings where
  concurrency := s.tagConcurrency.toNat
  ceiling := milliseconds s.storeTimeout
  maxRetries := s.maxRetries.toNat
  limits := { TagLimits.standard with maxTechniques := s.maxTechniques.toNat }
  fallbackDirectory := s.fallbackDirectory

def correlation (s : Settings) : Option Correlation :=
  if s.detectionEnabled then
    some ⟨milliseconds s.detectionTimeout, nanoseconds s.evasionWindow, s.breaker⟩
  else none

def reports (s : Settings) : ReportSettings where
  workers := s.reportWorkers.toNat
  deadline := milliseconds s.reportTimeout
  directory := s.reportDirectory
  company := s.companyName

end Settings

namespace Startup

/-- More slots than these cannot be counted. -/
def slotLimit : Nat := 0x1FFFFFFFFFFFFFFF

/-- Why an address cannot be listened on. -/
inductive AddressFault
  | noPort
  | badPort
  deriving DecidableEq, Repr

def AddressFault.message : AddressFault → String
  | .noPort => "invalid socket address"
  | .badPort => "invalid port value"

/-- A decimal numeral below 2^16, with a plus sign allowed. -/
def isPort (cs : List Char) : Bool :=
  let digits := if cs.head? = some '+' then cs.drop 1 else cs
  !digits.isEmpty && match Text.valueOfDigits? digits with
    | some n => n < 65536
    | none => false

/-- An address ends in a colon and a port. -/
def addressFault? (address : String) : Option AddressFault :=
  let cs := address.toList
  if ':' ∉ cs then some .noPort
  else if isPort (cs.reverse.takeWhile (· != ':')).reverse then none
  else some .badPort

inductive Fault
  | settings (fault : Settings.Fault)
  | tooManySlots
  | address (address : String) (fault : AddressFault)
  deriving DecidableEq, Repr

namespace Fault

def code : Fault → UInt32
  | .tooManySlots => 101
  | _ => 1

/-- The lines of a text that others follow. A carriage return at a line's end is part of its end. -/
def linesOf (text : String) : List String :=
  (text.toList.splitOn '\n').map fun line =>
    .ofList (if line.getLast? = some '\r' then line.dropLast else line)

def caused (context cause : String) : List String :=
  linesOf ("Error: " ++ context) ++ ["", "Caused by:", "    " ++ cause]

/-- The last words, line by line. -/
def report : Fault → List String
  | .settings fault => caused "Invalid configuration" fault.message
  | .tooManySlots =>
    ["a semaphore may not have more than MAX_PERMITS permits (" ++ toString slotLimit ++ ")"]
  | .address given fault => caused ("Failed to bind to " ++ given) fault.message

end Fault

/-- A part of the service with a pool of so many slots, at least one. Asking for more slots than can
be counted crashes. -/
def pooled {α : Type} (wanted : Nat) (part : α) : Except Fault α :=
  if max wanted 1 ≤ slotLimit then .ok part else .error .tooManySlots

def tagging (s : Settings) : Except Fault Tagging :=
  pooled s.tagConcurrency.toNat (.new s.tagging s.breaker)

def registry (s : Settings) : Except Fault Registry :=
  pooled s.reportWorkers.toNat (.new s.reports)

/-- The service that the settings ask for, its parts in the order in which they are made. -/
def service {σ : Type} (s : Settings) (files : σ) : Except Fault (Service σ) := do
  let tagging ← tagging s
  let registry ← registry s
  return .new tagging s.correlation registry files

def greeting : LogLine := .info "Starting Purple Orchestrator"

def loaded (s : Settings) : LogLine :=
  .info ("Loaded configuration: engine_url=" ++ s.engineUrl ++ ", store_url=" ++ s.storeUrl ++
    ", index=" ++ s.storeIndex)

/-- The name the store gives its cluster. -/
def clusterName (info : Json) : String :=
  match info.get? "cluster_name" with
  | some (.string name) => name
  | _ => "unknown"

/-- Whether the store can be reached decides nothing, but it is told. -/
def probed (info : Except RemoteFault Json) : LogLine :=
  match info with
  | .ok info => .info ("Connected to store cluster " ++ clusterName info)
  | .error fault =>
    .warning ("Store not reachable at startup, tagging will fall back: " ++ fault.message)

/-- What the store's probe gives when this is how it was answered, if at all. -/
def probe (s : Settings) (answer : Option Answer) : Except RemoteFault Json :=
  match answer with
  | some answer =>
    if s.store.infoRequest.sendable then StoreAccess.readInfo answer
    else .error (.unsent "builder error")
  | none => .error (.unsent "builder error")

/-- What is told once the tagging client is made. -/
def noted (s : Settings) : List LogLine :=
  if s.detectionEnabled then [] else [.info "Detection correlation disabled"]

/-- What is told once all parts are made. -/
def initialized (s : Settings) : List LogLine :=
  [.info "Services initialized", .info ("Listening on " ++ s.listenAddress)]

/-- The log up to the point where the service listens, or to the fault that keeps it from doing
so. -/
def start (s : Settings) (answer : Option Answer) : List LogLine × Option Fault :=
  match s.fault? with
  | some fault => ([greeting], some (.settings fault))
  | none =>
    let begun := [greeting, loaded s, probed (probe s answer)]
    match tagging s, registry s with
    | .error fault, _ => (begun, some fault)
    | .ok _, .error fault => (begun ++ noted s, some fault)
    | .ok _, .ok _ =>
      (begun ++ noted s ++ initialized s,
        (addressFault? s.listenAddress).map (.address s.listenAddress))

/-- The log of an orderly end. -/
def shutdown : List LogLine :=
  [.info "Shutdown signal received", .info "Draining in-flight work", .info "Shutdown complete"]

end Startup
end AfterAction
