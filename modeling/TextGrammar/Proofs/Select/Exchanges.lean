import TextGrammar.Expand.Run

/-!
# Exchanges with a selector

A selector is offered candidates for one symbol after the other and answers each offer before the
next one comes. Its picks for a symbol are the answers to the offers that name the symbol, in any
case, and hold a candidate.

## Main definitions

* `Offer` — candidates that are offered for a symbol.
* `Pick.answers`, `Pick.after` — the answers to offers, and the selector after them.
* `Pick.picksFor` — the picks for one symbol among the answers.
-/

namespace TextGrammar

variable {σ : Type}

/-- Candidates that are offered for a symbol. -/
structure Offer where
  symbol : Text
  candidates : List Text
deriving DecidableEq

/-- Whether an offer names a symbol, in any case, and holds a candidate. -/
def Offer.isFor (symbol : Text) (o : Offer) : Bool :=
  Text.sameName o.symbol symbol && !o.candidates.isEmpty

theorem Offer.isFor_iff (symbol : Text) (o : Offer) :
    o.isFor symbol = true ↔ Text.lower o.symbol = Text.lower symbol ∧ o.candidates ≠ [] := by
  simp [Offer.isFor]

namespace Pick

/-- The answers to offers that are made one after the other. -/
def answers (pick : Pick σ) (state : σ) : List Offer → List Text
  | [] => []
  | o :: offers =>
    let (answer, next) := pick state o.symbol o.candidates
    answer :: answers pick next offers

/-- The selector after offers. -/
def after (pick : Pick σ) (state : σ) : List Offer → σ
  | [] => state
  | o :: offers => after pick (pick state o.symbol o.candidates).2 offers

/-- Offers, each with its answer. -/
def exchanges (pick : Pick σ) (state : σ) (offers : List Offer) : List (Offer × Text) :=
  offers.zip (pick.answers state offers)

/-- The picks for a symbol: the answers to the offers for it. -/
def picksFor (pick : Pick σ) (symbol : Text) (state : σ) (offers : List Offer) : List Text :=
  ((pick.exchanges state offers).filter (·.1.isFor symbol)).map (·.2)

section Equations

variable (pick : Pick σ) (state : σ) (symbol : Text) (o : Offer) (offers more : List Offer)

@[simp] theorem after_nil : pick.after state [] = state := rfl

@[simp] theorem after_cons :
    pick.after state (o :: offers) = pick.after (pick state o.symbol o.candidates).2 offers := rfl

theorem after_append :
    pick.after state (offers ++ more) = pick.after (pick.after state offers) more := by
  induction offers generalizing state with
  | nil => rfl
  | cons o offers ih => exact ih _

@[simp] theorem exchanges_nil : pick.exchanges state [] = [] := rfl

@[simp] theorem exchanges_cons : pick.exchanges state (o :: offers)
    = (o, (pick state o.symbol o.candidates).1)
        :: pick.exchanges (pick state o.symbol o.candidates).2 offers := rfl

@[simp] theorem picksFor_nil : pick.picksFor symbol state [] = [] := rfl

/-- An offer for the symbol adds its answer to the picks, any other offer adds nothing. -/
theorem picksFor_cons : pick.picksFor symbol state (o :: offers)
    = (if o.isFor symbol then [(pick state o.symbol o.candidates).1] else [])
        ++ pick.picksFor symbol (pick state o.symbol o.candidates).2 offers := by
  cases ho : o.isFor symbol <;> simp [picksFor, ho]

/-- Every offer for the symbol is answered by a pick. -/
theorem length_picksFor :
    (pick.picksFor symbol state offers).length = offers.countP (·.isFor symbol) := by
  induction offers generalizing state with
  | nil => rfl
  | cons o offers ih =>
    rw [picksFor_cons, List.length_append, ih, List.countP_cons]
    cases ho : o.isFor symbol
    · simp
    · simp [Nat.add_comm]

end Equations

end Pick

end TextGrammar
