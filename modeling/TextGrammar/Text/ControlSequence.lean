import TextGrammar.Text.Basic

/-!
# Control sequences

A terminal takes some runs of characters as orders, for colours and the like: an escape and a
bracket, parameters, and a letter. Where lines are not meant for a terminal they are left out.

## Main definitions

* `Text.withoutControlSequences` — a text without its control sequences.
-/

namespace TextGrammar

/-- Whether a character can be a parameter of a control sequence. -/
def isControlParameter (c : Char) : Bool := c.isDigit || c = ';' || c = '?'

/-- The length of the control sequence that a text begins with. -/
def controlSequenceLength? : Text → Option Nat
  | '\x1b' :: '[' :: t =>
    let n := (t.takeWhile isControlParameter).length
    match t.drop n with
    | c :: _ => if c.isAlpha then some (n + 3) else none
    | [] => none
  | _ => none

namespace Text

/-- A text without its control sequences; `skip` counts the characters that belong to one that has
begun already. -/
def withoutControlSequencesFrom : (skip : Nat) → Text → Text
  | _, [] => []
  | skip + 1, _ :: t => withoutControlSequencesFrom skip t
  | 0, c :: t =>
    match controlSequenceLength? (c :: t) with
    | some n => withoutControlSequencesFrom (n - 1) t
    | none => c :: withoutControlSequencesFrom 0 t

/-- A text without its control sequences, found from the left. -/
def withoutControlSequences (t : Text) : Text := withoutControlSequencesFrom 0 t

end Text

end TextGrammar
