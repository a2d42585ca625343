/-!
Character classes given as lists of code point ranges, both ends included.
A class of the Unicode standard is a table of such ranges; membership is a scan.
-/

namespace AfterAction.Text

/-- Closed ranges of code points. -/
abbrev Ranges := List (Nat × Nat)

/-- Some range holds the code point of the character. -/
def Ranges.contains (ranges : Ranges) (c : Char) : Bool :=
  ranges.any fun (low, high) => low ≤ c.toNat && c.toNat ≤ high

theorem Ranges.contains_iff (ranges : Ranges) (c : Char) :
    ranges.contains c = true ↔ ∃ r ∈ ranges, r.1 ≤ c.toNat ∧ c.toNat ≤ r.2 := by
  simp [Ranges.contains, List.any_eq_true]

end AfterAction.Text
