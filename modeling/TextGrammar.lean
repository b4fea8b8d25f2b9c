import TextGrammar.Rule.Walk
import TextGrammar.Select.MersenneTwister
import TextGrammar.Select.Build
import TextGrammar.Grammar
import TextGrammar.English.Install
import TextGrammar.Validation
import TextGrammar.Lint.Findings
import TextGrammar.Load
import TextGrammar.Command.Run
import TextGrammar.Main
import TextGrammar.Proofs.Expansion.DepthLimit
import TextGrammar.Proofs.Expansion.FullExpansion
import TextGrammar.Proofs.Expansion.AfterLimit
import TextGrammar.Proofs.Rule.Canonical
import TextGrammar.Proofs.Rule.Balanced
import TextGrammar.Proofs.Lint.LeastSet
import TextGrammar.Proofs.Rule.Written
import TextGrammar.Proofs.Rule.BareBinding
import TextGrammar.Proofs.Lint.Finishing
import TextGrammar.Proofs.Expansion.Judgment
import TextGrammar.Proofs.Expansion.NonTerminating
import TextGrammar.Proofs.Expansion.Terminating
import TextGrammar.Proofs.Expansion.Depth
import TextGrammar.Proofs.NameMap.Writing
import TextGrammar.Proofs.Expansion.Writes
import TextGrammar.Proofs.Lint.Reachability
import TextGrammar.Proofs.Expansion.Unreachable
import TextGrammar.Proofs.Finding.Order
import TextGrammar.Proofs.Lint.Derivation
import TextGrammar.Proofs.Lint.WorkList
import TextGrammar.Proofs.Lint.Places
import TextGrammar.Proofs.Lint.Listing
import TextGrammar.Proofs.NameMap.Entries
import TextGrammar.Proofs.Store.Dictionary
import TextGrammar.Proofs.Store.Refusals
import TextGrammar.Proofs.Store.Requests
import TextGrammar.Proofs.Select.Deck
import TextGrammar.Proofs.Select.Answers
import TextGrammar.Proofs.Command.Lines
import TextGrammar.Proofs.Expansion.Repeated
import TextGrammar.Proofs.Validation.Verdicts
import TextGrammar.Proofs.Command.Formats
import TextGrammar.Proofs.Rule.Shape
import TextGrammar.Proofs.Expansion.Verbatim
import TextGrammar.Proofs.Expansion.BoundName
import TextGrammar.Proofs.Rule.Spelling
import TextGrammar.Proofs.Expansion.Asked
import TextGrammar.Proofs.Command.Origin
import TextGrammar.Proofs.Rule.Concatenation
import TextGrammar.Proofs.Select.Walking
import TextGrammar.Proofs.Expansion.Lookup
import TextGrammar.Proofs.Expansion.ModifierChain
import TextGrammar.Proofs.Select.Routing
import TextGrammar.Proofs.English.LastWord
import TextGrammar.Proofs.English.Capitals
import TextGrammar.Proofs.Command.Symbols
import TextGrammar.Proofs.Rule.Visiting
