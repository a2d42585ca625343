import AfterAction.Json.Value
import AfterAction.Time.Instant

/-!
Circuit breakers: calls to a remote that keeps failing are refused for a while. A closed breaker
admits every call and counts failures in a row; at the threshold it opens. An open breaker refuses
calls until the cooldown has passed since the last failure, and then admits a single trial, whose
result alone decides whether it closes. A call from before the opening may still fail late: that is
counted and the cooldown starts anew, but the trial goes on.
-/

namespace AfterAction

/-- Leave to make one call, handed back with the call's result. -/
structure Admission where
  trial : Bool
  deriving DecidableEq, Repr

structure Breaker where
  /-- Failures in a row that open the breaker. -/
  threshold : Nat
  /-- In nanoseconds. -/
  cooldown : Nat
  isOpen : Bool
  failures : Nat
  /-- Reading of the steady clock at the last failure. -/
  lastFailure : Option Nat
  trialInFlight : Bool
  deriving DecidableEq, Repr

namespace Breaker

/-- A closed breaker. It takes at least one failure to open it. -/
def new (threshold cooldown : Nat) : Breaker :=
  ⟨max threshold 1, cooldown, false, 0, none, false⟩

/-- The count stops here. -/
def failureCap : Nat := 0xFFFFFFFF

/-- Clock readings before the last failure count as no time since. -/
def cooledDown (b : Breaker) (now : Nat) : Bool :=
  match b.lastFailure with
  | some at_ => b.cooldown ≤ now - at_
  | none => true

/-- A call admitted now, and the breaker afterwards; none if the call is refused. -/
def admit? (b : Breaker) (now : Nat) : Option (Admission × Breaker) :=
  if !b.isOpen then some (⟨false⟩, b)
  else if b.trialInFlight || !b.cooledDown now then none
  else some (⟨true⟩, { b with trialInFlight := true })

/-- An admitted call succeeded. -/
def succeeded (b : Breaker) (admission : Admission) : Breaker :=
  if !b.isOpen then { b with failures := 0 }
  else if admission.trial then { b with isOpen := false, failures := 0, trialInFlight := false }
  else b

/-- An admitted call failed. -/
def failed (b : Breaker) (admission : Admission) (now : Nat) : Breaker :=
  let failures := min (b.failures + 1) failureCap
  let counted := { b with failures, lastFailure := some now }
  if !b.isOpen then { counted with isOpen := b.threshold ≤ failures }
  else if admission.trial then { counted with trialInFlight := false }
  else counted

/-! ## What an operation can do -/

variable {b b' : Breaker} {a : Admission} {now : Nat}

theorem admit?_cases (h : b.admit? now = some (a, b')) :
    (b.isOpen = false ∧ a = ⟨false⟩ ∧ b' = b) ∨
    (b.isOpen = true ∧ b.trialInFlight = false ∧ b.cooledDown now = true ∧ a = ⟨true⟩ ∧
      b' = { b with trialInFlight := true }) := by
  unfold admit? at h
  split at h
  · rename_i hc
    cases h
    exact .inl ⟨by simpa using hc, rfl, rfl⟩
  · rename_i hc
    split at h
    · cases h
    · rename_i hr
      cases h
      simp only [Bool.or_eq_true, Bool.not_eq_true', not_or, Bool.not_eq_true,
        Bool.not_eq_false] at hc hr
      exact .inr ⟨hc, hr.1, hr.2, rfl, rfl⟩

theorem succeeded_of_closed (h : b.isOpen = false) :
    b.succeeded a = { b with failures := 0 } := by
  simp [succeeded, h]

theorem succeeded_trial (h : b.isOpen = true) (ha : a.trial = true) :
    b.succeeded a = { b with isOpen := false, failures := 0, trialInFlight := false } := by
  simp [succeeded, h, ha]

/-- A success from before the opening comes too late. -/
theorem succeeded_late (h : b.isOpen = true) (ha : a.trial = false) : b.succeeded a = b := by
  simp [succeeded, h, ha]

/-- Every failure counts and restarts the cooldown, whoever reports it. -/
theorem failed_counts (b : Breaker) (a : Admission) (now : Nat) :
    (b.failed a now).failures = min (b.failures + 1) failureCap ∧
    (b.failed a now).lastFailure = some now ∧ (b.failed a now).threshold = b.threshold ∧
    (b.failed a now).cooldown = b.cooldown := by
  unfold failed
  split
  · exact ⟨rfl, rfl, rfl, rfl⟩
  · split <;> exact ⟨rfl, rfl, rfl, rfl⟩

theorem failed_isOpen (b : Breaker) (a : Admission) (now : Nat) :
    (b.failed a now).isOpen =
      (b.isOpen || decide (b.threshold ≤ min (b.failures + 1) failureCap)) := by
  unfold failed
  cases b.isOpen with
  | false => rfl
  | true => cases a.trial <;> rfl

theorem failed_trialInFlight (b : Breaker) (a : Admission) (now : Nat) :
    (b.failed a now).trialInFlight = (b.trialInFlight && !(b.isOpen && a.trial)) := by
  unfold failed
  cases b.isOpen <;> cases ha : a.trial <;> simp

def stateName (b : Breaker) : String := if b.isOpen then "open" else "closed"

open Json in
/-- The breaker for a status page, under its name. -/
def toJson (b : Breaker) (name : String) (now : Nat) : Json := .object [
  ("name", .string name),
  ("state", .string b.stateName),
  ("consecutive_failures", ofNat b.failures),
  ("threshold", ofNat b.threshold),
  ("reset_timeout_secs", ofNat (b.cooldown / nanosPerSecond)),
  ("last_failure_secs_ago",
    ofOption (fun at_ => ofNat ((now - at_) / nanosPerSecond)) b.lastFailure)]

end Breaker
end AfterAction
