import AfterAction.Binary64

/-!
Shares in percent. The quotient is rounded to a double precision float and so is its hundredfold,
in this order; the text with one decimal is that of the exact value of the float.
-/

namespace AfterAction

/-- Nothing is no share of nothing. Counts are far from the range's end, so every step has a
result. -/
def percent (part total : Nat) : Binary64 :=
  let share? : Option Binary64 := do
    let share ← (← Binary64.ofNat? part).quotient? (← Binary64.ofNat? total)
    share.product? (← Binary64.ofNat? 100)
  share?.getD (.zero false)

/-- With one decimal. -/
def percentText (x : Binary64) : String :=
  let tenths := roundHalfEven (10 * x.numerator) x.denominator
  toString (tenths / 10) ++ "." ++ toString (tenths % 10)

end AfterAction
