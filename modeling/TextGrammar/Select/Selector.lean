import TextGrammar.Select.RandomSource
import TextGrammar.NameMap

/-!
# Selectors

A selector chooses one of the candidates that are offered for a symbol. It may remember, for each
symbol, how far it has come. Offered nothing, every selector answers the empty text and changes
nothing.

## Main definitions

* `Selector σ` — the kinds of selectors and their memories; `σ` is the source of random choices.
* `Selector.pick` — the choice of a selector, and the selector afterwards.
* `routeName` — the name of the part of a composite that a symbol is meant for.
-/

namespace TextGrammar

/-- What is left of the candidates of a symbol, `source`, after a shuffle. -/
structure Deck where
  source : List Text
  /-- Those not drawn yet, the next one first. -/
  remaining : List Text
deriving DecidableEq

instance : Inhabited Deck := ⟨⟨[], []⟩⟩

inductive Selector (σ : Type) where
  | random (source : σ)
  | first
  /-- One candidate after the other, and the first one again after the last; for each symbol, the
  place of the next. -/
  | sequential (next : NameMap Nat)
  /-- Candidates are drawn without putting them back and shuffled again when none is left or when
  other candidates are offered. -/
  | deck (source : σ) (decks : NameMap Deck)
  /-- The selector whose name ends the symbol, after the last `marker`. -/
  | composite (marker : Text) (parts : List (Text × Selector σ))

/-- What follows the last place where `marker` is written in a text. -/
def afterLast? (marker : Text) : Text → Option Text
  | [] => Text.dropStart? marker []
  | c :: t =>
    match afterLast? marker t with
    | some rest => some rest
    | none => Text.dropStart? marker (c :: t)

/-- The name of the selector that a symbol is meant for: what follows the last marker, or the whole
symbol when it holds no marker. -/
def routeName (marker symbol : Text) : Text := (afterLast? marker symbol).getD symbol

namespace Selector

variable {σ : Type} [RandomSource σ]

/-- Draws one of the candidates; the first one when the number drawn is too large. -/
def pickRandom (source : σ) (candidates : List Text) : Text × σ :=
  let (i, source) := RandomSource.below source candidates.length
  (candidates.getD i (candidates.headD []), source)

/-- The next candidate of a symbol. -/
def pickNext (next : NameMap Nat) (symbol : Text) (candidates : List Text) :
    Text × NameMap Nat :=
  let i := (next.get? symbol).getD 0 % candidates.length
  (candidates.getD i [], next.insert symbol (i + 1))

/-- The deck to draw from: the one of the symbol, or else the candidates shuffled. -/
def currentDeck (source : σ) (decks : NameMap Deck) (symbol : Text) (candidates : List Text) :
    List Text × σ :=
  let shuffled :=
    let (texts, source) := RandomSource.shuffle source candidates
    (texts.reverse, source)
  match decks.get? symbol with
  | some held =>
    if held.source = candidates ∧ held.remaining ≠ [] then (held.remaining, source) else shuffled
  | none => shuffled

/-- The next candidate of the deck of a symbol. -/
def pickFromDeck (source : σ) (decks : NameMap Deck) (symbol : Text) (candidates : List Text) :
    Text × σ × NameMap Deck :=
  let (cards, source) := currentDeck source decks symbol candidates
  (cards.headD [], source, decks.insert symbol ⟨candidates, cards.tail⟩)

mutual

/-- The choice of a selector for a symbol, and the selector afterwards. -/
def pick (selector : Selector σ) (symbol : Text) (candidates : List Text) :
    Text × Selector σ :=
  match selector with
  | random source =>
    if candidates = [] then ([], random source)
    else
      let (choice, source) := pickRandom source candidates
      (choice, random source)
  | first => (candidates.headD [], first)
  | sequential next =>
    if candidates = [] then ([], sequential next)
    else
      let (choice, next) := pickNext next symbol candidates
      (choice, sequential next)
  | deck source decks =>
    if candidates = [] then ([], deck source decks)
    else
      let (choice, source, decks) := pickFromDeck source decks symbol candidates
      (choice, deck source decks)
  | composite marker parts =>
    let (choice, parts) := pickAmong parts (routeName marker symbol) symbol candidates
    (choice, composite marker parts)

/-- The choice of the part called `name`, and the parts afterwards; the empty text when no part is
called so. -/
def pickAmong (parts : List (Text × Selector σ)) (name symbol : Text) (candidates : List Text) :
    Text × List (Text × Selector σ) :=
  match parts with
  | [] => ([], [])
  | (n, selector) :: rest =>
    if Text.sameName n name then
      let (choice, selector) := pick selector symbol candidates
      (choice, (n, selector) :: rest)
    else
      let (choice, rest) := pickAmong rest name symbol candidates
      (choice, (n, selector) :: rest)

end

end Selector

end TextGrammar
