import TextGrammar.Value.Shown
import TextGrammar.RuleTable

/-!
# What maps admit

A map may be handed any value under any key. What it admits depends on its kind: a plain map takes
every value, a rule table takes candidates, a registry takes modifiers; and all of them take texts
as keys only.

## Main definitions

* `Refusal` — why a key or a value is refused.
* `Admission V` — how values are turned into what a map stores, and back; what is stored is admitted
  again.
* `Admission.anyValue`, `Admission.candidateLists`, `Admission.modifiers` — the three kinds.
-/

namespace TextGrammar

/-- Why an operation on a map is refused. -/
inductive Refusal where
  | keyNotText (kind : Text)
  | keyWithoutCase (kind : Text)
  | notCandidates (kind : Text)
  | candidateNotText (key kind : Text)
  | notModifier (key : Text)
  /-- A name, in lower case, has no entry. -/
  | missing (name : Text)
  | alreadyDefined (key : Text)
  | nothingThere
deriving DecidableEq

/-- Why an operation is refused, in words; for a missing name the name itself. -/
def Refusal.message : Refusal → Text
  | keyNotText kind => "keys must be strings, got ".toList ++ kind
  | keyWithoutCase kind => '\'' :: kind ++ "' object has no attribute 'lower'".toList
  | notCandidates kind => '\'' :: kind ++ "' object is not iterable".toList
  | candidateNotText key kind =>
    "candidates for '".toList ++ key ++ "' must be strings, got ".toList ++ kind
  | notModifier key => "modifier '".toList ++ key ++ "' must be callable".toList
  | missing name => name
  | alreadyDefined key => "symbol already defined: ".toList ++ key
  | nothingThere => []

/-- How values are turned into what a map stores, and back. -/
structure Admission (V : Type) where
  accept (key value : Value) : Except Refusal V
  toValue : V → Value
  /-- What is stored is admitted again, under every key, as what it is. -/
  readmits : ∀ key v, accept key (toValue v) = .ok v

/-- The first item that is not a text refuses the candidates. -/
def candidatesOf (key : Value) : List Value → Except Refusal (List Text)
  | [] => .ok []
  | .text t :: items => (candidatesOf key items).map (t :: ·)
  | v :: _ => .error (.candidateNotText key.plain v.kind)

namespace Admission

/-- A plain map takes every value as it is. -/
def anyValue : Admission Value := ⟨fun _ value => .ok value, id, fun _ _ => rfl⟩

/-- A rule table takes a text as the only candidate, and a list, or the keys of a mapping, as the
candidates. -/
def candidateLists : Admission (List Text) where
  accept key value :=
    match value with
    | .text t => .ok [t]
    | .list items => candidatesOf key items
    | .mapping entries => candidatesOf key (entries.map (·.1))
    | .candidates texts => .ok texts
    | v => .error (.notCandidates v.kind)
  toValue := .candidates
  readmits _ _ := rfl

/-- A registry takes modifiers. -/
def modifiers : Admission Modifier where
  accept key value :=
    match value with
    | .modifier m => .ok m
    | _ => .error (.notModifier key.plain)
  toValue := .modifier
  readmits _ _ := rfl

end Admission

end TextGrammar
