import TextGrammar.Expand.Run
import TextGrammar.Rule.Parse

/-!
# Expansion

A rule is expanded part by part. Literal text stays. A binding expands its rule and binds the result
to its name; outside a reference its text stays as it is written. A reference runs its bindings,
takes the value of its symbol — a variable, else a candidate of the rule of that name, else the
symbol itself — expands it, sends the result through the modifiers and expands what they give.

Every expansion inside another lies one level deeper. A rule that lies deeper than the limit is left
as it is, and from then on so is every rule with a construct in it; when the setting is strict it is
an error instead.

What is defined here is what comes of expansions in which no modifier fails on the text that it is
given. The others break off where one fails; they are told apart as such (`Grammar.BreaksOff`), and
the text with which they go on here stands for nothing.

## Main definitions

* `flatten` — the text that a rule expands to, with a given number of levels left.
* `flattenTop` — the same for a rule that lies in no other.
-/

namespace TextGrammar

variable {σ : Type}

/-- Leaves a rule that lies too deep as it is, and everything after it; an error when the setting is
strict. -/
def tooDeep (setting : Setting σ) (rule : Text) : Expansion σ Text := fun run =>
  if setting.strict then .error ⟨setting.maxDepth, rule⟩ run
  else if run.truncated then .ok rule run
  else .ok rule { run.record (.tooDeep setting.maxDepth rule) with truncated := true }

/-- The text that a symbol stands for: its variable, else a candidate of its rule, else itself. -/
def resolve (setting : Setting σ) (symbol : Text) : Expansion σ Text := fun run =>
  match run.bound.get? symbol with
  | some value => .ok value run
  | none =>
    match run.rules.get? symbol with
    | some candidates =>
      let (choice, run) := run.choose setting.pick symbol candidates
      .ok choice run
    | none => .ok symbol run

/-- Sends a text through the modifiers of a reference from left to right; a name that no modifier
has is passed over. -/
def applyModifiers (setting : Setting σ) (reference : Text) :
    List Text → Text → Expansion σ Text
  | [], text => pure text
  | name :: names, text =>
    match setting.modifiers.get? name with
    | some modifier => applyModifiers setting reference names (modifier.apply text)
    | none => do
      modify (·.record (.unknownModifier name reference))
      applyModifiers setting reference names text

/-- Runs a binding; `inner` expands a rule one level deeper. -/
def runBinding (setting : Setting σ) (inner : Text → Expansion σ Text) (b : Binding) :
    Expansion σ Unit :=
  match b.rule with
  | none => do
    let _ ← inner b.asReference.raw
  | some rule => do
    let value ← inner rule
    modify (·.bind setting.keepsBindings b.name value)

def runBindings (setting : Setting σ) (inner : Text → Expansion σ Text) :
    List Binding → Expansion σ Unit
  | [] => pure ()
  | b :: bindings => do
    runBinding setting inner b
    runBindings setting inner bindings

/-- The text that a reference expands to; `inner` expands a rule one level deeper. -/
def expandReference (setting : Setting σ) (inner : Text → Expansion σ Text) (r : Reference) :
    Expansion σ Text := do
  runBindings setting inner r.bindings
  let value ← resolve setting r.symbol
  let text ← inner value
  let text ← applyModifiers setting r.raw r.modifiers text
  inner text

/-- The text that a part of a rule expands to; `inner` expands a rule one level deeper. -/
def expandNode (setting : Setting σ) (inner : Text → Expansion σ Text) :
    Node → Expansion σ Text
  | .text value => pure value
  | .binding b => do
    runBinding setting inner b
    pure b.raw
  | .reference r => expandReference setting inner r

/-- The text that parts of a rule expand to, one after the other. -/
def expandNodes (setting : Setting σ) (inner : Text → Expansion σ Text) :
    List Node → Expansion σ Text
  | [] => pure []
  | node :: nodes => do
    let text ← expandNode setting inner node
    let rest ← expandNodes setting inner nodes
    pure (text ++ rest)

/-- The text that a rule expands to when `levels` levels are left. -/
def flatten (setting : Setting σ) : (levels : Nat) → Text → Expansion σ Text
  | 0, rule => if hasSyntax rule then tooDeep setting rule else pure rule
  | levels + 1, rule =>
    if hasSyntax rule then do
      if (← get).truncated then tooDeep setting rule
      else expandNodes setting (flatten setting levels) (parse rule)
    else pure rule

/-- The number of levels that the limit allows: rules may lie `0`, `1`, …, `maxDepth` deep. -/
def Setting.levels (setting : Setting σ) : Nat := (setting.maxDepth + 1).toNat

def flattenTop (setting : Setting σ) (rule : Text) : Expansion σ Text :=
  flatten setting setting.levels rule

end TextGrammar
