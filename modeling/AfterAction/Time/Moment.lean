import AfterAction.Time.Instant

/-!
Readings of the clocks at one moment. The wall clock gives dates, the steady clock only ever says
how long ago something was, and the timer is what sleeps and deadlines are set on.
-/

namespace AfterAction

structure Moment where
  wall : Instant
  /-- In nanoseconds. -/
  steady : Nat
  /-- In milliseconds. -/
  timer : Nat
  deriving DecidableEq, Repr

end AfterAction
