/-!
Finite double precision floats in whole numbers. A result of arithmetic is the float nearest to the
exact quotient, of two equally near ones that with the even significand.
-/

namespace AfterAction

/-- The quotient rounded to the nearest whole number, a half to the even neighbour. -/
def roundHalfEven (num den : Nat) : Nat :=
  let q := num / den
  let twice := 2 * (num % den)
  if twice < den ∨ (twice = den ∧ q % 2 = 0) then q else q + 1

/-- The significand times this power of two. A significand has 53 bits; only at the least power
may it have fewer. -/
structure Binary64 where
  negative : Bool
  significand : Nat
  power : Int
  deriving DecidableEq, Repr

namespace Binary64

def leastPower : Int := -1074

def greatestPower : Int := 971

/-- The least significand of 53 bits. -/
def unit : Nat := 0x10000000000000

def zero (negative : Bool) : Binary64 := ⟨negative, 0, leastPower⟩

def isZero (x : Binary64) : Bool := x.significand == 0

/-- The magnitude as a quotient. -/
def numerator (x : Binary64) : Nat := x.significand * Nat.pow 2 x.power.toNat

def denominator (x : Binary64) : Nat := Nat.pow 2 (-x.power).toNat

/-- A quotient divided by this power of two. -/
def scaled (power : Int) (num den : Nat) : Nat × Nat :=
  (num * Nat.pow 2 (-power).toNat, den * Nat.pow 2 power.toNat)

/-- The power at which the quotient has a significand of 53 bits, or the least one. The difference
of the two whole logarithms is that of the quotient or one more, so two powers come into question. -/
def powerOf (num den : Nat) : Int :=
  let low : Int := (Nat.log2 num : Int) - Nat.log2 den - 53
  let (n, d) := scaled low num den
  max leastPower (if n < 2 * unit * d then low else low + 1)

/-- The float nearest to a quotient; none where that would be beyond the greatest. -/
def nearest? (negative : Bool) (num den : Nat) : Option Binary64 :=
  if num = 0 then some (zero negative)
  else
    let power := powerOf num den
    let (n, d) := scaled power num den
    let significand := roundHalfEven n d
    let (significand, power) :=
      if significand = 2 * unit then (unit, power + 1) else (significand, power)
    if greatestPower < power then none else some ⟨negative, significand, power⟩

def ofNat? (n : Nat) : Option Binary64 := nearest? false n 1

def product? (x y : Binary64) : Option Binary64 :=
  nearest? (x.negative != y.negative) (x.numerator * y.numerator)
    (x.denominator * y.denominator)

/-- None for a zero divisor too. -/
def quotient? (x y : Binary64) : Option Binary64 :=
  if y.isZero then none
  else nearest? (x.negative != y.negative) (x.numerator * y.denominator)
    (x.denominator * y.numerator)

/-- The 64 bits it is stored in: sign, exponent, significand without its leading one. -/
def bits (x : Binary64) : Nat :=
  (if x.negative then 0x8000000000000000 else 0) +
    (if x.significand < unit then x.significand
    else (x.power - leastPower).toNat * unit + x.significand)

end Binary64
end AfterAction
