import AfterAction.Remote.Engine
import AfterAction.Remote.Store
import AfterAction.Text.Blank

/-!
Settings: every endpoint, limit and directory of the service, read from named variables. A number
or a switch that cannot be read counts as not given.
-/

namespace AfterAction

structure Settings where
  listenAddress : String
  engineUrl : String
  engineApiKey : String
  storeUrl : String
  storeIndex : String
  detectionIndex : String
  storeApiKey : String
  storeUser : String
  storePassword : String
  storeVerifyTls : Bool
  /-- Durations are in seconds. -/
  connectTimeout : UInt64
  /-- The ceiling for one tag write, retries included. -/
  storeTimeout : UInt64
  maxRetries : UInt32
  breakerThreshold : UInt32
  breakerReset : UInt64
  tagConcurrency : UInt64
  reportWorkers : UInt64
  reportTimeout : UInt64
  fallbackDirectory : String
  reportDirectory : String
  maxTechniques : UInt64
  detectionEnabled : Bool
  detectionTimeout : UInt64
  evasionWindow : UInt64
  companyName : String
  deriving DecidableEq, Repr

namespace Settings

def standard : Settings where
  listenAddress := "0.0.0.0:8787"
  engineUrl := "http://localhost:8888"
  engineApiKey := ""
  storeUrl := "http://localhost:9200"
  storeIndex := "purple-team-logs"
  detectionIndex := "purple-team-logs-*"
  storeApiKey := ""
  storeUser := ""
  storePassword := ""
  storeVerifyTls := true
  connectTimeout := 10
  storeTimeout := 35
  maxRetries := 3
  breakerThreshold := 5
  breakerReset := 60
  tagConcurrency := 5
  reportWorkers := 3
  reportTimeout := 30
  fallbackDirectory := "data/fallback_logs"
  reportDirectory := "data/reports"
  maxTechniques := 500
  detectionEnabled := true
  detectionTimeout := 10
  evasionWindow := 300
  companyName := "Purple Team"

/-- The value of a decimal numeral below 2^64, with blanks around it and a plus sign before it
allowed. -/
def number? (raw : String) : Option UInt64 := do
  let digits :=
    match Text.trimChars raw.toList with
    | '+' :: rest => rest
    | cs => cs
  if digits.isEmpty then none
  let n ← Text.valueOfDigits? digits
  if n < 0x10000000000000000 then some (UInt64.ofNat n) else none

def switch? (raw : String) : Option Bool :=
  let word := String.ofList ((Text.trimChars raw.toList).map Char.toLower)
  if word ∈ ["true", "1", "yes", "on"] then some true
  else if word ∈ ["false", "0", "no", "off"] then some false
  else none

/-- Where a variable gives nothing usable the standard holds. The two 32-bit numbers keep the low
half of what is given. -/
def read (lookup : String → Option String) : Settings :=
  let string (name standard : String) := (lookup name).getD standard
  let number (name : String) (standard : UInt64) := ((lookup name).bind number?).getD standard
  let switch (name : String) (standard : Bool) := ((lookup name).bind switch?).getD standard
  { listenAddress := string "PURPLE_LISTEN_ADDR" standard.listenAddress
    engineUrl := string "PURPLE_ENGINE_URL" standard.engineUrl
    engineApiKey := string "PURPLE_ENGINE_API_KEY" standard.engineApiKey
    storeUrl := string "PURPLE_STORE_URL" standard.storeUrl
    storeIndex := string "PURPLE_STORE_INDEX" standard.storeIndex
    detectionIndex := string "PURPLE_DETECTION_INDEX" standard.detectionIndex
    storeApiKey := string "PURPLE_STORE_API_KEY" standard.storeApiKey
    storeUser := string "PURPLE_STORE_USER" standard.storeUser
    storePassword := string "PURPLE_STORE_PASSWORD" standard.storePassword
    storeVerifyTls := switch "PURPLE_STORE_VERIFY_TLS" standard.storeVerifyTls
    connectTimeout := number "PURPLE_CONNECT_TIMEOUT" standard.connectTimeout
    storeTimeout := number "PURPLE_STORE_TIMEOUT" standard.storeTimeout
    maxRetries := (number "PURPLE_STORE_MAX_RETRIES" standard.maxRetries.toUInt64).toUInt32
    breakerThreshold :=
      (number "PURPLE_BREAKER_THRESHOLD" standard.breakerThreshold.toUInt64).toUInt32
    breakerReset := number "PURPLE_BREAKER_RESET" standard.breakerReset
    tagConcurrency := number "PURPLE_TAG_CONCURRENCY" standard.tagConcurrency
    reportWorkers := number "PURPLE_REPORT_WORKERS" standard.reportWorkers
    reportTimeout := number "PURPLE_REPORT_TIMEOUT" standard.reportTimeout
    fallbackDirectory := string "PURPLE_FALLBACK_DIR" standard.fallbackDirectory
    reportDirectory := string "PURPLE_REPORT_DIR" standard.reportDirectory
    maxTechniques := number "PURPLE_MAX_TECHNIQUES" standard.maxTechniques
    detectionEnabled := switch "PURPLE_DETECTION_ENABLED" standard.detectionEnabled
    detectionTimeout := number "PURPLE_DETECTION_TIMEOUT" standard.detectionTimeout
    evasionWindow := number "PURPLE_EVASION_WINDOW" standard.evasionWindow
    companyName := string "PURPLE_COMPANY_NAME" standard.companyName }

/-- Why the service does not start with the settings. -/
inductive Fault
  | emptyUrl (name : String)
  | noScheme (name : String)
  | emptyIndex
  | zero (name : String)
  | workers (given : UInt64)
  | reportTimeout (given : UInt64)
  deriving DecidableEq, Repr

def Fault.message : Fault → String
  | .emptyUrl name => name ++ " cannot be empty"
  | .noScheme name => name ++ " must start with http:// or https://"
  | .emptyIndex => "store_index cannot be empty"
  | .zero name => name ++ " must be greater than 0"
  | .workers given =>
    "report_workers must be between 1 and 10 (got " ++ toString given.toNat ++ ")"
  | .reportTimeout given =>
    "report_timeout must be between 5 and 300 seconds (got " ++ toString given.toNat ++ ")"

def urlFault? (name url : String) : Option Fault :=
  if url = "" then some (.emptyUrl name)
  else if Url.hasScheme url then none
  else some (.noScheme name)

/-- The first fault, in the order in which settings are checked. -/
def fault? (s : Settings) : Option Fault :=
  urlFault? "engine_url" s.engineUrl <|>
  urlFault? "store_url" s.storeUrl <|>
  (if s.storeIndex = "" then some .emptyIndex else none) <|>
  (if s.breakerThreshold = 0 then some (.zero "breaker_threshold") else none) <|>
  (if s.tagConcurrency = 0 then some (.zero "tag_concurrency") else none) <|>
  (if 1 ≤ s.reportWorkers ∧ s.reportWorkers ≤ 10 then none
    else some (.workers s.reportWorkers)) <|>
  (if 5 ≤ s.reportTimeout ∧ s.reportTimeout ≤ 300 then none
    else some (.reportTimeout s.reportTimeout)) <|>
  (if s.storeTimeout = 0 then some (.zero "store_timeout") else none) <|>
  (if s.maxTechniques = 0 then some (.zero "max_techniques") else none)

def credentials (s : Settings) : Credentials :=
  Credentials.choose s.storeApiKey s.storeUser s.storePassword

def engine (s : Settings) : EngineAccess := EngineAccess.of s.engineUrl s.engineApiKey

def store (s : Settings) : StoreAccess where
  baseUrl := Url.trimSlashes s.storeUrl
  credentials := s.credentials
  index := s.storeIndex
  detectionIndex := s.detectionIndex
  maxTechniques := s.maxTechniques.toNat

end Settings
end AfterAction
