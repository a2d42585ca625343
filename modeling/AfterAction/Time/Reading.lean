import AfterAction.Text.Blank
import AfterAction.Text.Digits
import AfterAction.Time.Instant

/-!
Readers of written times. Three grammars are accepted: the interchange form as it is defined
(`strict?`), the same form with blanks between its parts, short fields and any spelling of the
offset (`relaxed?`), and the engine's own form without an offset (`plain?`).
-/

namespace AfterAction.Time

/-- A reader takes characters off the front or gives up. -/
abbrev Reader := StateT (List Char) Option

namespace Reader

def blanks : Reader Unit := modify Text.trimFront

def finish : Reader Unit := do
  if (← get).isEmpty then return () else failure

def next : Reader Char := do
  match ← get with
  | [] => failure
  | c :: rest => set rest; return c

/-- The front character if it satisfies the test. -/
def one (test : Char → Bool) : Reader Char := do
  let c ← next
  if test c then return c else failure

/-- The front character, left where it is. -/
def peek : Reader (Option Char) := return (← get).head?

/-- The longest run of digits, at most `most` of them and at least `least`. -/
def digits (least most : Nat) : Reader (List Char) := do
  let run := ((← get).takeWhile Char.isDigit).take most
  if run.length < least then failure
  set ((← get).drop run.length)
  return run

def number (least most : Nat) : Reader Nat := do
  Text.valueOfDigits? (← digits least most)

/-- A number that may have blanks before it. -/
def loose (most : Nat) : Reader Nat := do
  blanks
  number 1 most

/-- Without a sign a year has at most four digits, with a sign any number of them. -/
def looseYear : Reader Int := do
  blanks
  let any := (← get).length
  match ← peek with
  | some '-' => let _ ← next; return -(← number 1 any)
  | some '+' => let _ ← next; return (← number 1 any)
  | _ => return (← number 1 4)

/-- Up to nine digits count; further ones are passed over. -/
def fraction : Reader Nat := do
  match ← peek with
  | some '.' =>
    let _ ← next
    let run ← digits 1 9
    modify (·.dropWhile Char.isDigit)
    return (← Text.valueOfDigits? run) * Nat.pow 10 (9 - run.length)
  | _ => return 0

def sign : Reader Int := do
  match ← next with
  | '+' => return 1
  | '-' | '−' => return -1
  | _ => failure

/-- Seconds east of universal time: the zone letter, or a sign, two digits of hours and two of
minutes with `between` in the middle. -/
def offset (between : Reader Unit) : Reader Int := do
  match ← peek with
  | some 'Z' | some 'z' => let _ ← next; return 0
  | _ =>
    let direction ← sign
    let hours ← number 2 2
    between
    let minutes ← number 2 2
    if 60 ≤ minutes then failure
    return direction * (hours * 3600 + minutes * 60)

/-- The zone name that stands for no offset, in any case of its letters. -/
def zoneName : Reader Bool := do
  let cs ← get
  if (cs.take 3).map Char.toUpper = ['U', 'T', 'C'] then
    set (cs.drop 3)
    return true
  else return false

end Reader

/-- The parts of a written time before they are put together. -/
structure Fields where
  date : Date
  hour : Nat
  minute : Nat
  second : Nat
  nano : Nat

/-- The instant the fields name at an offset east of universal time. Second 60 is the leap second
after second 59, whatever the minute. -/
def Fields.instant? (f : Fields) (offset : Int) : Option Instant :=
  let leap := f.second == 60
  let second := if leap then 59 else f.second
  if f.date.valid && f.hour < 24 && f.minute < 60 && f.second ≤ 60 && f.nano < nanosPerSecond
      && offset.natAbs < 86400 then
    let count : Int := f.date.dayNumber * 86400 + f.hour * 3600 + f.minute * 60 + second - offset
    let reached : Instant :=
      { day := count / 86400
        second := Instant.secondOf (count % 86400).toNat
        nano := Instant.nanoOf (if leap then f.nano + nanosPerSecond else f.nano) }
    if reached.inRange then some reached else none
  else none

open Reader

/-- Fixed widths, no blanks, a colon in the offset, any fraction. -/
def strict : Reader Instant := do
  let year ← number 4 4
  let _ ← one (· == '-')
  let month ← number 2 2
  let _ ← one (· == '-')
  let day ← number 2 2
  let _ ← one fun c => c == 'T' || c == 't' || c == ' '
  let hour ← number 2 2
  let _ ← one (· == ':')
  let minute ← number 2 2
  let _ ← one (· == ':')
  let second ← number 2 2
  let nano ← fraction
  let east ← offset (do let _ ← one (· == ':'))
  finish
  Fields.instant? ⟨⟨year, month, day⟩, hour, minute, second, nano⟩ east

/-- A mark that may have blanks before it. -/
def looseMark (mark : Char) : Reader Unit := do
  blanks
  let _ ← one (· == mark)

def relaxed : Reader Instant := do
  let year ← looseYear
  looseMark '-'
  let month ← loose 2
  looseMark '-'
  let day ← loose 2
  let _ ← one fun c => c == 'T' || c == 't' || c == ' '
  let hour ← loose 2
  looseMark ':'
  let minute ← loose 2
  looseMark ':'
  let second ← loose 2
  let nano ← fraction
  blanks
  let named ← zoneName
  let east ← if named then pure 0
    else offset (modify (·.dropWhile fun c => c == ':' || Text.isBlank c))
  blanks
  finish
  Fields.instant? ⟨⟨year, month, day⟩, hour, minute, second, nano⟩ east

/-- Date and clock in universal time; `between` reads what separates them. -/
def plain (between : Reader Unit) : Reader Instant := do
  let year ← looseYear
  let _ ← one (· == '-')
  let month ← loose 2
  let _ ← one (· == '-')
  let day ← loose 2
  between
  let hour ← loose 2
  let _ ← one (· == ':')
  let minute ← loose 2
  let _ ← one (· == ':')
  let second ← loose 2
  finish
  Fields.instant? ⟨⟨year, month, day⟩, hour, minute, second, 0⟩ 0

def strict? (raw : String) : Option Instant := (strict.run raw.toList).map (·.1)

def relaxed? (raw : String) : Option Instant := (relaxed.run raw.toList).map (·.1)

/-- The engine separates date and clock by blanks, by nothing, or by the letter. -/
def plain? (raw : String) : Option Instant :=
  ((plain blanks).run raw.toList <|>
    (plain (do let _ ← one (· == 'T'))).run raw.toList).map (·.1)

end AfterAction.Time
