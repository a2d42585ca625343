/-!
Names in other scripts, written in ASCII. The basic characters of a name stand in front of its last
hyphen; behind it, numbers in a mixed base of 36 digits say which further characters go in where.
-/

namespace AfterAction.Punycode

def digitValue? (c : Char) : Option Nat :=
  if 'a' ≤ c && c ≤ 'z' then some (c.toNat - 'a'.toNat)
  else if 'A' ≤ c && c ≤ 'Z' then some (c.toNat - 'A'.toNat)
  else if '0' ≤ c && c ≤ '9' then some (c.toNat - '0'.toNat + 26)
  else none

/-- A digit below this one ends its number. -/
def threshold (place bias : Nat) : Nat :=
  if place ≤ bias then 1 else if bias + 26 ≤ place then 26 else place - bias

/-- Small deltas are expected after a small delta. A delta loses at least five bits a round, so
rounds beyond the given ones would change nothing. -/
def adaptedFrom : Nat → Nat → Nat → Nat
  | 0, _, place => place
  | rounds + 1, delta, place =>
    if 455 < delta then adaptedFrom rounds (delta / 35) (place + 36)
    else place + 36 * delta / (delta + 38)

def adapted (delta count : Nat) (first : Bool) : Nat :=
  let delta := if first then delta / 700 else delta / 2
  adaptedFrom 64 (delta + delta / count) 0

/-- One number, least digit first: its value and the text after it. -/
def number? (bias : Nat) : List Char → Nat → Nat → Nat → Option (Nat × List Char)
  | [], _, _, _ => none
  | c :: rest, place, weight, value => do
    let digit ← digitValue? c
    let value := value + digit * weight
    let limit := threshold place bias
    if digit < limit then return (value, rest)
    else number? bias rest (place + 36) (weight * (36 - limit)) value

def character? (code : Nat) : Option Char := if code.isValidChar then some (.ofNat code) else none

/-- The numbers of a text put their characters in, one by one. Each takes a digit at least, so the
length is fuel enough. -/
def insertAll : Nat → List Char → List Char → Nat → Nat → Nat → Option (List Char)
  | _, [], done, _, _, _ => some done
  | 0, _, _, _, _, _ => none
  | fuel + 1, cs, done, code, index, bias => do
    let (delta, rest) ← number? bias cs 36 1 0
    let count := done.length + 1
    let reached := index + delta
    let code := code + reached / count
    let index := reached % count
    let c ← character? code
    insertAll fuel rest (done.take index ++ c :: done.drop index) code (index + 1)
      (adapted delta count (done.all fun c => c.toNat < 0x80))

/-- The name in its own script. -/
def decode? (cs : List Char) : Option (List Char) :=
  let coded := (cs.reverse.takeWhile (· != '-')).reverse
  let basic := cs.take (cs.length - coded.length - 1)
  insertAll coded.length coded basic 0x80 0 72

end AfterAction.Punycode
