import TextGrammar.Select.Selector
import TextGrammar.Text.WhiteSpace
import TextGrammar.Finding

/-!
# Selectors by name

A selector is asked for by its name, in any case and with blanks around it. A composite is built
from named selectors and a marker, which must not be empty.
-/

namespace TextGrammar

def selectorNames : List Text :=
  ["random".toList, "first".toList, "sequential".toList, "deck".toList]

/-- No selector has the name that was asked for. -/
structure UnknownSelector where
  name : Text
deriving DecidableEq

def UnknownSelector.finding (e : UnknownSelector) : Finding where
  stage := .configuring
  code := "E_UNKNOWN_SELECTOR".toList
  message := "unknown selector: ".toList ++ e.name ++ " (choose one of: ".toList
    ++ Text.joined ", ".toList selectorNames ++ [')']
  path := some "selector".toList

/-- A composite cannot be built with an empty marker. -/
inductive EmptyMarker where
  | mk
deriving DecidableEq

def EmptyMarker.message (_ : EmptyMarker) : Text := "marker must be a non-empty string".toList

namespace Selector

variable {σ : Type}

/-- The selector of a name; `source` serves the ones that choose at random. -/
def named (name : Text) (source : σ) : Except UnknownSelector (Selector σ) :=
  let key := Text.lower (Text.strip name)
  if key = "random".toList then .ok (.random source)
  else if key = "first".toList then .ok .first
  else if key = "sequential".toList then .ok (.sequential ∅)
  else if key = "deck".toList then .ok (.deck source ∅)
  else .error ⟨name⟩

/-- The composite of named selectors; of several selectors with one name the last one counts. -/
def compose (marker : Text) (parts : List (Text × Selector σ)) :
    Except EmptyMarker (Selector σ) :=
  if marker = [] then .error .mk else .ok (.composite marker (NameMap.ofList parts).entries)

end Selector

end TextGrammar
