import TextGrammar.NameMap

/-!
# Rule tables

A rule table gives each symbol its candidates: the rules that may stand for it, in order.
-/

namespace TextGrammar

/-- The candidates of each symbol. -/
abbrev RuleTable := NameMap (List Text)

namespace RuleTable

/-- The candidates of a symbol; a symbol that is not in the table has none. -/
def candidates (table : RuleTable) (symbol : Text) : List Text := (table.get? symbol).getD []

def candidateCount (table : RuleTable) : Nat := table.values.flatten.length

end RuleTable

end TextGrammar
