import TextGrammar.Text.Basic

/-!
# Sets of names that grow by a rule

Some sets of names are the least ones that a rule allows: a name belongs to the set when the rule
says so on the ground of names that belong to it. They are found in rounds that start with no name
at all; with as many rounds as there are names nothing is left to add.
-/

namespace TextGrammar

/-- The names of `names` that the rule adds in `rounds` rounds. -/
def leastSetWithin (names : List Text) (rule : List Text → Text → Bool) : (rounds : Nat) → List Text
  | 0 => []
  | rounds + 1 => names.filter (rule (leastSetWithin names rule rounds))

/-- The least set of names of `names` that holds every name which the rule adds to it. -/
def leastSet (names : List Text) (rule : List Text → Text → Bool) : List Text :=
  leastSetWithin names rule names.length

end TextGrammar
