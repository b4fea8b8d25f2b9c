import TextGrammar.Lint.LeastSet
import TextGrammar.RuleTable
import TextGrammar.Rule.Walk

/-!
# Which symbols need which

Every candidate of a symbol refers to symbols of the table, by names compared in lower case. From
this it is seen which symbols can be reached from a start, and which can finish: a symbol finishes
when it has no candidates, or when a candidate of it refers to symbols that finish only.

## Main definitions

* `Dependency`, `dependencies` — the symbols that each candidate of a symbol refers to.
* `reachableFrom`, `finishing` — the symbols that a start leads to, and those that can finish.
-/

namespace TextGrammar

/-- A symbol with the symbols that its candidates refer to. -/
structure Dependency where
  symbol : Text
  /-- For each candidate the symbols of the table that it refers to, in lower case. -/
  candidates : List (List Text)

def Dependency.name (d : Dependency) : Text := Text.lower d.symbol

/-- The symbols of the table that a rule refers to, in lower case. -/
def symbolsOf (table : RuleTable) (rule : Text) : List Text :=
  ((referencesIn rule).filter fun r => table.contains r.symbol).map fun r => Text.lower r.symbol

/-- The symbols of a table with those that their candidates refer to. -/
def dependencies (table : RuleTable) : List Dependency :=
  table.entries.map fun e => ⟨e.1, e.2.map (symbolsOf table)⟩

/-- Whether some candidate of a symbol in `names` refers to `name`. -/
def isReferredTo (graph : List Dependency) (names : List Text) (name : Text) : Bool :=
  graph.any fun d => names.contains d.name && d.candidates.any (·.contains name)

/-- The symbols, in lower case, that references lead to from `start`. -/
def reachableFrom (graph : List Dependency) (start : Text) : List Text :=
  leastSet (graph.map (·.name)) fun names name => name = start || isReferredTo graph names name

/-- Whether a symbol finishes when the symbols in `names` do. -/
def finishesGiven (graph : List Dependency) (names : List Text) (name : Text) : Bool :=
  graph.any fun d =>
    d.name = name && (d.candidates.isEmpty || d.candidates.any (·.all names.contains))

/-- The symbols, in lower case, that can finish. -/
def finishing (graph : List Dependency) : List Text :=
  leastSet (graph.map (·.name)) (finishesGiven graph)

end TextGrammar
