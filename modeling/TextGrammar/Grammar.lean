import TextGrammar.Expand.Flatten
import TextGrammar.Store.Request
import TextGrammar.Config

/-!
# Grammars

A grammar is a rule table with the modifiers and the options that its rules are expanded with.
Expanding a rule may write bound values into the table, when bindings are kept, and moves the
selector on.

## Main definitions

* `Grammar` — rules, modifiers and options.
* `Grammar.flatten` — expands one rule.
* `Grammar.flattenMany` — expands one rule several times with one selector.
* `Grammar.build` — a grammar from keys and values of any kind.
-/

namespace TextGrammar

/-- Rules and modifiers, with what an expansion keeps to: whether bound values are also written into
the rules, how deep rules may lie in one another, and whether passing that limit is an error. -/
structure Grammar where
  rules : RuleTable := ∅
  modifiers : Registry := ∅
  keepsBindings : Bool := false
  maxDepth : Int := defaultMaxDepth
  strict : Bool := false

/-- What expanding a rule comes to: a text or the passed limit, the rules and the selector
afterwards, and what happened. -/
structure Outcome (σ : Type) where
  result : Except DepthExceeded Text
  grammar : Grammar
  selector : σ
  /-- What happened, the earliest first. -/
  events : List Event

/-- What expanding a rule several times comes to; there are no texts after the first failure. -/
structure Outcomes (σ : Type) where
  texts : List Text
  failure : Option DepthExceeded
  grammar : Grammar
  selector : σ
  events : List Event

namespace Grammar

variable {σ : Type}

def setting (g : Grammar) (pick : Pick σ) : Setting σ :=
  ⟨g.modifiers, g.maxDepth, g.strict, g.keepsBindings, pick⟩

/-- Expands one rule; the variables of the expansion end with it. The modifiers are taken not to
fail. -/
def flatten (g : Grammar) (pick : Pick σ) (selector : σ) (rule : Text) : Outcome σ :=
  match flattenTop (g.setting pick) rule { rules := g.rules, selector := selector } with
  | .ok text run => ⟨.ok text, { g with rules := run.rules }, run.selector, run.events⟩
  | .error e run => ⟨.error e, { g with rules := run.rules }, run.selector, run.events⟩

/-- Expands one rule `count` times with one selector, until an expansion fails. -/
def flattenMany (g : Grammar) (pick : Pick σ) (selector : σ) (rule : Text) :
    (count : Nat) → Outcomes σ
  | 0 => ⟨[], none, g, selector, []⟩
  | count + 1 =>
    let first := g.flatten pick selector rule
    match first.result with
    | .error e => ⟨[], some e, first.grammar, first.selector, first.events⟩
    | .ok text =>
      let others := first.grammar.flattenMany pick first.selector rule count
      { others with texts := text :: others.texts, events := first.events ++ others.events }

inductive BuildFault where
  | refused (e : Refusal)
  | badDepth (e : BadDepth)
deriving DecidableEq

/-- A grammar from rules and modifiers given as pairs; without a depth limit the one of the
environment is taken. -/
def build (rules modifiers : List (Value × Value)) (keepsBindings strict : Bool)
    (maxDepth : Option Int) (env : Environment) : Except BuildFault Grammar :=
  match storeAll .candidateLists ∅ rules with
  | (some e, _) => .error (.refused e)
  | (none, rules) =>
    match storeAll .modifiers ∅ modifiers with
    | (some e, _) => .error (.refused e)
    | (none, modifiers) =>
      match maxDepth with
      | some d => .ok ⟨rules, modifiers, keepsBindings, d, strict⟩
      | none =>
        match env.maxDepth with
        | .ok d => .ok ⟨rules, modifiers, keepsBindings, d, strict⟩
        | .error e => .error (.badDepth e)

end Grammar

end TextGrammar
