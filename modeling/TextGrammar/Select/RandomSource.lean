import TextGrammar.Text.Basic

/-!
# Sources of random choices

A selector that chooses at random draws from a source. All that the rest of the library relies on is
stated by `LawfulRandomSource`: a number drawn below a bound lies below it, and shuffling keeps the
texts.
-/

namespace TextGrammar

/-- A state from which numbers below a bound are drawn and with which texts are shuffled. -/
class RandomSource (σ : Type) where
  below : σ → Nat → Nat × σ
  shuffle : σ → List Text → List Text × σ

/-- A drawn number lies below its bound, and shuffling keeps the texts. -/
class LawfulRandomSource (σ : Type) [RandomSource σ] : Prop where
  below_lt (s : σ) (n : Nat) : 0 < n → (RandomSource.below s n).1 < n
  shuffle_perm (s : σ) (texts : List Text) : (RandomSource.shuffle s texts).1.Perm texts

end TextGrammar
