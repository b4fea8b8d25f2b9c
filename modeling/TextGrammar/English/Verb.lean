import TextGrammar.English.Ending
import TextGrammar.English.LooseLetter
import TextGrammar.English.NounClass

/-!
# Plurals of verbs

A verb in the third person loses its ending in the plural. A word counts as one when it ends with
`s` and is not known as a noun with that ending; a name, which begins with a capital, never counts.

## Main definitions

* `endsLikeNoun` — whether a word in `s` is a noun.
* `verbPlural?` — the plural of a verb.
-/

namespace TextGrammar

def irregularVerbs : List (String × String) := [
  ("am", "are"), ("are", "are"), ("is", "are"), ("was", "were"), ("were", "were"),
  ("have", "have"), ("has", "have"), ("do", "do"), ("does", "do")]

def unchangedVerbs : List String := [
  "did", "had", "ate", "made", "put", "spent", "fought", "sank", "gave", "sought", "shall",
  "could", "ought", "should"]

/-- Verbs that end with an `e` before the `s` that they lose. -/
def verbsInOes : List String := ["canoes", "floes", "oboes", "roes", "throes", "woes"]

/-- Whether a word in `s` is a noun or a name. -/
def endsLikeNoun (w : Text) : Bool :=
  isAmong singularNounsInS w || endsWithAny singularEndingsInS w
    || isAmong pluralNounsInS w || endsWithAny pluralEndingsInS w
    || (listed? irregularNounsInS w).isSome
    || endsWithAny ["cis", "sis", "xis", "ceps"] w
    || ((w.head?.map Char.isUpper).getD false && 2 ≤ w.length && endsWith "s" w)

/-- A word without the single `s` at its end. -/
def withoutFinalS? (w : Text) : Option Text :=
  match (looseText w).reverse with
  | 's' :: c :: _ => if c = 's' then none else some (dropEnd 1 w)
  | _ => none

/-- A word in the third person without its ending. -/
def thirdPersonStem? (w : Text) : Option Text :=
  let l := Text.lower w
  if l = "quizzes".toList then some "quiz".toList
  else if endsWithAny ["ches", "shes", "zzes", "sses", "xes"] l then some (dropEnd 2 w)
  else if endsWith "ies" l && 3 < w.length then some (dropEnd 3 l ++ ['y'])
  else if isAmong verbsInOes l || endsWithAny ["hoes", "toes"] l then some (dropEnd 1 w)
  else if endsWith "oes" l && 3 < w.length then some (dropEnd 2 l)
  else withoutFinalS? w

/-- The plural of a verb; a negation follows the verb that it negates. -/
def verbPlural? (w : Text) : Option Text :=
  match listed? irregularVerbs w with
  | some p => some p
  | none =>
    if isAmong unchangedVerbs w then some w
    else if endsWith "n't" w then
      some (((listed? irregularVerbs (dropEnd 3 w)).map (· ++ "n't".toList)).getD w)
    else if endsLikeNoun w then none
    else thirdPersonStem? w

end TextGrammar
