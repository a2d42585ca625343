import AfterAction.Binary64

/-!
The shortest decimal of a float: on the grids of one digit, two digits and so on, the value has a
neighbour on either side, and the first that the float is nearest to is taken.
-/

namespace AfterAction.Binary64

/-- A whole number times this power of ten. -/
structure Decimal where
  digits : Nat
  exponent : Int

/-- The decimals of this many digits on both sides of a quotient, the nearer first. The power of
ten that the quotient reaches is given. -/
def neighbours (num den : Nat) (reach : Int) (length : Nat) : List Decimal :=
  let exponent := reach - length
  let n := num * Nat.pow 10 (-exponent).toNat
  let d := den * Nat.pow 10 exponent.toNat
  let low := n / d
  let near := roundHalfEven n d
  let far := if near = low then low + 1 else low
  [⟨near, exponent⟩, ⟨far, exponent⟩]

def ofDecimal? (negative : Bool) (decimal : Decimal) : Option Binary64 :=
  nearest? negative (decimal.digits * Nat.pow 10 decimal.exponent.toNat)
    (Nat.pow 10 (-decimal.exponent).toNat)

/-- The power of ten just beyond a quotient: the least above it. -/
def reach (num den : Nat) : Int :=
  let guess : Int := (Nat.toDigits 10 num).length - (Nat.toDigits 10 den).length
  if num * Nat.pow 10 (-guess).toNat < den * Nat.pow 10 guess.toNat then guess else guess + 1

/-- Of the decimals that this float is nearest to, the shortest one, and of those the nearest.
Seventeen digits are always enough. -/
def shortest (x : Binary64) : Decimal :=
  let power := reach x.numerator x.denominator
  let candidates := (List.range 17).flatMap fun n =>
    neighbours x.numerator x.denominator power (n + 1)
  (candidates.find? fun c => ofDecimal? x.negative c == some x).getD ⟨0, 0⟩

end AfterAction.Binary64
