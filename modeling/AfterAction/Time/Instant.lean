import AfterAction.Time.Date

/-!
Instants in coordinated universal time, to the nanosecond, leap seconds included: a leap second
is the second before it with a nanosecond field of 10^9 and more. The order is by day, second of
the day and nanosecond, so a leap second stands between its two neighbours.
-/

namespace AfterAction

def nanosPerSecond : Nat := 1000000000

structure Instant where
  /-- Days since 1970-01-01. -/
  day : Int
  second : Fin 86400
  nano : Fin 2000000000
  deriving DecidableEq, Repr

namespace Instant

/-- Inside the years that can be written down. -/
def inRange (t : Instant) : Bool := Date.firstDay ≤ t.day && t.day ≤ Date.lastDay

def isLeapSecond (t : Instant) : Bool := nanosPerSecond ≤ t.nano.val

def before (a b : Instant) : Bool :=
  a.day < b.day || a.day == b.day &&
    (a.second < b.second || a.second == b.second && a.nano < b.nano)

/-- `a` is not after `b`. -/
def notAfter (a b : Instant) : Bool := !before b a

def date (t : Instant) : Date := Date.ofDayNumber t.day

/-- Nanoseconds since the start of 1970 on a count without leap seconds. -/
def nanoCount (t : Instant) : Int :=
  (t.day * 86400 + t.second.val) * nanosPerSecond + t.nano.val

/-- A second of the day, and a nanosecond field, from a number in range. -/
def secondOf (n : Nat) : Fin 86400 := Fin.ofNat 86400 n

def nanoOf (n : Nat) : Fin 2000000000 := Fin.ofNat 2000000000 n

/-- The day and time that a count of nanoseconds names, never a leap second. -/
def ofNanoCount (n : Int) : Instant :=
  let seconds := n / nanosPerSecond
  { day := seconds / 86400
    second := secondOf (seconds % 86400).toNat
    nano := nanoOf (n % nanosPerSecond).toNat }

/-- The longest span that is told apart from forever: 2^63 - 1 milliseconds. -/
def longestSpan : Nat := 0x7FFFFFFFFFFFFFFF * 1000000

/-- The instant a number of nanoseconds later. Inside a leap second time goes on within it; past
its end the count continues from the second it belongs to. There is none past the last day. -/
def later? (t : Instant) (nanos : Nat) : Option Instant :=
  let reached :=
    if t.isLeapSecond then
      if h : nanos < nanosPerSecond ∧ t.nano.val + nanos < 2000000000 then
        { t with nano := ⟨t.nano.val + nanos, h.2⟩ }
      else ofNanoCount (t.nanoCount - nanosPerSecond + nanos)
    else ofNanoCount (t.nanoCount + nanos)
  if reached.inRange then some reached else none

/-- Nanoseconds from `a` to `b`. A leap second of the earlier time of day counts as a second of
its own once the later time of day is past it. -/
def nanosBetween (a b : Instant) : Int :=
  let extra : Int :=
    if a.second < b.second ∧ a.isLeapSecond then 1
    else if b.second < a.second ∧ b.isLeapSecond then -1
    else 0
  b.nanoCount - a.nanoCount + extra * nanosPerSecond

end Instant
end AfterAction
