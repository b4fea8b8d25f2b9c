import TextGrammar.Text.Integer
import TextGrammar.Text.Case
import TextGrammar.Finding

/-!
# Settings of the environment

Two variables of the environment give defaults: how deep rules may lie in one another, and which
selector is used. A variable that is not set or blank leaves the built-in default.

## Main definitions

* `Environment` — the variables that are set.
* `Environment.maxDepth` — the depth limit, or why the setting is refused.
* `Environment.selectorName` — the name of the selector.
-/

namespace TextGrammar

/-- The variables that are set, with their values. -/
abbrev Environment := List (Text × Text)

def defaultMaxDepth : Int := 64

def defaultSelectorName : Text := "random".toList

def maxDepthVariable : Text := "TRACERY_MAX_DEPTH".toList

def selectorVariable : Text := "TRACERY_SELECTOR".toList

/-- The depth limit that the environment asks for is not a positive whole number. -/
structure BadDepth where
  /-- The value, without white space around it. -/
  value : Text
deriving DecidableEq

def BadDepth.finding (e : BadDepth) : Finding where
  stage := .configuring
  code := "E_CONFIG_INVALID".toList
  message := maxDepthVariable ++ " must be a positive integer, got ".toList ++ e.value.quoted
  path := some maxDepthVariable

namespace Environment

/-- The value of a variable without white space around it, empty when it is not set. -/
def value (env : Environment) (name : Text) : Text :=
  match env.find? (·.1 = name) with
  | some (_, v) => Text.strip v
  | none => []

def maxDepth (env : Environment) : Except BadDepth Int :=
  let raw := env.value maxDepthVariable
  if raw = [] then .ok defaultMaxDepth
  else
    match readInteger? raw with
    | some i => if i ≤ 0 then .error ⟨raw⟩ else .ok i
    | none => .error ⟨raw⟩

def selectorName (env : Environment) : Text :=
  let raw := (env.value selectorVariable).lower
  if raw = [] then defaultSelectorName else raw

end Environment

end TextGrammar
