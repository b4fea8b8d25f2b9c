import TextGrammar.Text.Basic

/-!
# Sets of characters

A property of characters is given as ascending ranges of code points, both ends included.
-/

namespace TextGrammar

/-- Ranges of code points, both ends included. -/
abbrev CodeRanges := List (Nat × Nat)

def CodeRanges.has (ranges : CodeRanges) (c : Char) : Bool :=
  ranges.any fun r => r.1 ≤ c.toNat && c.toNat ≤ r.2

theorem CodeRanges.has_iff (ranges : CodeRanges) (c : Char) :
    ranges.has c = true ↔ ∃ r ∈ ranges, r.1 ≤ c.toNat ∧ c.toNat ≤ r.2 := by
  simp [CodeRanges.has]

end TextGrammar
