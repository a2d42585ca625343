import AfterAction.Json.Value
import AfterAction.Text.Digits

/-!
Numbers as they are written, and what they stand for. A whole number that fits is itself. Any
other number becomes a float in two roundings: as many digits as fit 64 bits are read as a whole
number, the others at most move its point; this number, rounded, is then multiplied or divided by
a power of ten and rounded again. The last place may so differ from that of the nearest float, and
a number close to the greatest float may miss the range or stay inside.
-/

namespace AfterAction.Json

/-- The parts of a number: whole digits, digits after the point, exponent. -/
structure Numeral where
  negative : Bool
  whole : List Char
  fraction : List Char
  exponent : Option Int
  deriving Repr

/-- Digits appended to a number for as long as it fits 64 bits; the number and how many of them
it took. -/
def gather (n : Nat) : List Char → Nat × Nat
  | [] => (n, 0)
  | c :: rest =>
    match Text.digit? c with
    | none => (n, 0)
    | some d =>
      if 10 * n + d < 0x10000000000000000 then
        let (value, taken) := gather (10 * n + d) rest
        (value, taken + 1)
      else (n, 0)

/-- What an over-long number keeps: a significand and its power of ten. -/
structure Scaled where
  significand : Nat
  power : Int

namespace Scaled

/-- The greatest power of ten a float has room for. -/
def greatestPower : Nat := 308

/-- The power of ten as a float; up to the greatest power there always is one. -/
def tenTo (power : Nat) : Binary64 :=
  (Binary64.ofNat? (Nat.pow 10 power)).getD (.zero false)

/-- Divided by a power of ten, twice where it is beyond the greatest one; after two divisions by
that nothing is left of any significand. -/
def shrunk? (x : Binary64) (power : Nat) : Option Binary64 :=
  if power ≤ greatestPower then x.quotient? (tenTo power)
  else if power ≤ 2 * greatestPower then do
    (← x.quotient? (tenTo greatestPower)).quotient? (tenTo (power - greatestPower))
  else some (.zero false)

/-- None where the product is beyond the greatest float; zero is zero at every power. -/
def magnitude? (s : Scaled) : Option Binary64 := do
  let x ← Binary64.ofNat? s.significand
  if x.isZero then return x
  else if s.power < 0 then shrunk? x (-s.power).toNat
  else if s.power ≤ greatestPower then x.product? (tenTo s.power.toNat)
  else none

end Scaled

namespace Numeral

/-- Whole digits without room count as zeros, digits after the point without room not at all. -/
def scaled (n : Numeral) : Scaled :=
  let (whole, taken) := gather 0 n.whole
  let (significand, places) := gather whole n.fraction
  ⟨significand, (n.whole.length : Int) - taken - places + n.exponent.getD 0⟩

/-- A whole number without point or exponent that fits 64 bits, below zero with a sign bit among
them. There is no whole number of minus nothing. -/
def whole? (n : Numeral) : Option Int :=
  let (magnitude, taken) := gather 0 n.whole
  if !n.fraction.isEmpty || n.exponent.isSome || taken < n.whole.length then none
  else if !n.negative then some magnitude
  else if 0 < magnitude && magnitude ≤ 0x8000000000000000 then some (-magnitude)
  else none

def number? (n : Numeral) : Option Number :=
  match n.whole? with
  | some value => some (.int value)
  | none => n.scaled.magnitude?.map fun x => .real { x with negative := n.negative }

def json (n : Numeral) : Json :=
  match n.number? with
  | some value => .number value
  | none => .flaw .token

end Numeral
end AfterAction.Json
