import AfterAction.Text.Digits
import AfterAction.Time.Instant

/-!
Written forms of an instant. A year outside 0 to 9999 carries its sign and at least four digits;
a leap second is written as second 60.
-/

namespace AfterAction

def Date.yearText (year : Int) : String :=
  let digits := Text.zeroPadded 4 year.natAbs
  if year < 0 then "-" ++ digits else if 9999 < year then "+" ++ digits else digits

namespace Instant

/-- Hour, minute and second on the clock, 60 in a leap second. -/
def clock (t : Instant) : Nat × Nat × Nat :=
  (t.second.val / 3600, t.second.val / 60 % 60,
    t.second.val % 60 + t.nano.val / nanosPerSecond)

/-- The shortest of 0, 3, 6 and 9 digits that loses nothing. -/
def fractionText (t : Instant) : String :=
  let nano := t.nano.val % nanosPerSecond
  if nano = 0 then ""
  else if nano % 1000000 = 0 then "." ++ Text.zeroPadded 3 (nano / 1000000)
  else if nano % 1000 = 0 then "." ++ Text.zeroPadded 6 (nano / 1000)
  else "." ++ Text.zeroPadded 9 nano

def dateText (t : Instant) (separator : String) : String :=
  let d := t.date
  Date.yearText d.year ++ separator ++ Text.zeroPadded 2 d.month ++ separator ++
    Text.zeroPadded 2 d.day

def clockText (t : Instant) (separator : String) : String :=
  let (hour, minute, second) := t.clock
  Text.zeroPadded 2 hour ++ separator ++ Text.zeroPadded 2 minute ++ separator ++
    Text.zeroPadded 2 second

/-- The form on the wire, in universal time with the zone letter. -/
def wireText (t : Instant) : String :=
  t.dateText "-" ++ "T" ++ t.clockText ":" ++ t.fractionText ++ "Z"

/-- The form for readers of a report. -/
def displayText (t : Instant) : String :=
  t.dateText "-" ++ " " ++ t.clockText ":" ++ " UTC"

/-- The form in file names. -/
def stamp (t : Instant) : String := t.dateText "" ++ "_" ++ t.clockText ""

end Instant
end AfterAction
