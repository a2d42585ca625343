import AfterAction.Text.Blank

/-!
Technique ids of the attack catalogue: `T` and four digits, with an optional sub-technique of a
dot and three digits.
-/

namespace AfterAction.Technique

def digits (cs : List Char) : Bool := cs.all Char.isDigit

def wellFormedChars : List Char → Bool
  | ['T', a, b, c, d] => digits [a, b, c, d]
  | ['T', a, b, c, d, '.', x, y, z] => digits [a, b, c, d, x, y, z]
  | _ => false

/-- The id as it stands, blanks included, has the catalogue's form. -/
def wellFormed (id : String) : Bool := wellFormedChars id.toList

/-- The well-formed ids of a list after trimming, each once, in the order they first appear, and
no more than the cap. -/
def collect (raw : List String) (cap : Nat) : List String :=
  ((raw.map Text.trim).filter wellFormed).eraseDups.take cap

end AfterAction.Technique
