import TextGrammar.Text.Basic

/-!
# The order of texts

Texts are ordered as in a dictionary whose alphabet is the code points.
-/

namespace TextGrammar

namespace Text

/-- How two texts compare, character by character; a text comes before its continuations. -/
def compare : Text → Text → Ordering
  | [], [] => .eq
  | [], _ :: _ => .lt
  | _ :: _, [] => .gt
  | a :: s, b :: t => (Ord.compare a.toNat b.toNat).then (compare s t)

def atMost (s t : Text) : Bool := (compare s t).isLE

@[simp] theorem compare_self (t : Text) : compare t t = .eq := by
  induction t with
  | nil => rfl
  | cons c t ih => simp [compare, ih]

/-- Only equal texts compare as equal. -/
theorem eq_of_compare {s t : Text} (h : compare s t = .eq) : s = t := by
  induction s generalizing t with
  | nil =>
    cases t with
    | nil => rfl
    | cons => simp [compare] at h
  | cons a s ih =>
    cases t with
    | nil => simp [compare] at h
    | cons b t =>
      simp only [compare, Ordering.then_eq_eq, Nat.compare_eq_eq] at h
      rw [Char.toNat_inj.1 h.1, ih h.2]

end Text

end TextGrammar
