import TextGrammar.RuleTable
import TextGrammar.Modifier
import TextGrammar.Text.Digit
import TextGrammar.Finding

/-!
# The state of an expansion

An expansion owns the variables that its bindings write, may write rules when bindings are kept,
asks a selector for candidates, and leaves a trace of what happened.

## Main definitions

* `Run` — the state of one expansion.
* `Event` — one thing that happened.
* `Setting` — what stays fixed during an expansion.
* `Expansion` — a step of an expansion: it changes the state and may pass the depth limit.
-/

namespace TextGrammar

/-- One thing that happened during an expansion. -/
inductive Event where
  | picked (symbol : Text) (candidates : List Text) (choice : Text)
  | bound (name value : Text)
  | unknownModifier (name reference : Text)
  | tooDeep (limit : Int) (rule : Text)
deriving DecidableEq

inductive Level where
  | debug
  | warning
deriving DecidableEq

/-- What the log says about an event; nothing about a selector's answer. -/
def Event.logLine? : Event → Option (Level × Text)
  | picked .. => none
  | bound name value => some (.debug, "bound ".toList ++ name ++ " = ".toList ++ value.quoted)
  | unknownModifier name reference =>
    some (.debug,
      "skipping unknown modifier ".toList ++ name.quoted ++ " in ".toList ++ reference)
  | tooDeep limit rule =>
    some (.warning, "expansion exceeded max depth ".toList ++ integerText limit
      ++ "; leaving ".toList ++ rule.quoted ++ " unexpanded".toList)

/-- The state of one expansion; `σ` is the state of the selector. -/
structure Run (σ : Type) where
  rules : RuleTable
  bound : NameMap Text := ∅
  selector : σ
  /-- Whether the depth limit has been passed, so that nothing expands any more. -/
  truncated : Bool := false
  /-- What happened, the latest first. -/
  trace : List Event := []

/-- An expansion went deeper than its limit, at a rule. -/
structure DepthExceeded where
  limit : Int
  rule : Text
deriving DecidableEq

def DepthExceeded.finding (e : DepthExceeded) : Finding where
  stage := .expanding
  code := "E_MAX_DEPTH".toList
  message := "expansion exceeded max depth ".toList ++ integerText e.limit
    ++ " (cyclic grammar?)".toList
  path := some e.rule

/-- How a selector answers: from its state, the symbol and the candidates, a text and a new
state. -/
abbrev Pick (σ : Type) := σ → Text → List Text → Text × σ

/-- What stays fixed during an expansion: what the grammar asks for, and how candidates are
chosen. -/
structure Setting (σ : Type) where
  modifiers : Registry
  maxDepth : Int
  strict : Bool
  keepsBindings : Bool
  pick : Pick σ

/-- A step of an expansion. -/
abbrev Expansion (σ : Type) := EStateM DepthExceeded (Run σ)

namespace Run

variable {σ : Type}

def record (run : Run σ) (e : Event) : Run σ := { run with trace := e :: run.trace }

/-- What happened, the earliest first. -/
def events (run : Run σ) : List Event := run.trace.reverse

/-- Writes the value of a name, and into the rules when bindings are kept. -/
def bind (run : Run σ) (keeps : Bool) (name value : Text) : Run σ :=
  { run with
    bound := run.bound.insert name value
    rules := if keeps then run.rules.insert name [value] else run.rules
    trace := .bound name value :: run.trace }

/-- Asks the selector for one of the candidates of a symbol. -/
def choose (run : Run σ) (pick : Pick σ) (symbol : Text) (candidates : List Text) :
    Text × Run σ :=
  let (choice, selector) := pick run.selector symbol candidates
  (choice, { run with selector, trace := .picked symbol candidates choice :: run.trace })

end Run

end TextGrammar
