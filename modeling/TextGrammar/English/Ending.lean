import TextGrammar.Text.Basic

/-!
# Endings of words

Most forms of a word hang on how it ends: an ending is dropped and another one is added.

## Main definitions

* `endsWith`, `endsWithAny` — whether a word has an ending.
* `EndingChange` — what is dropped and added after some endings.
* `listed?` — a form that is looked up in a list.
-/

namespace TextGrammar

def endsWith (ending : String) (t : Text) : Bool := ending.toList.isSuffixOf t

def endsWithAny (endings : List String) (t : Text) : Bool := endings.any (endsWith · t)

def isAmong (words : List String) (t : Text) : Bool := words.any fun w => w.toList = t

def dropEnd (n : Nat) (t : Text) : Text := t.take (t.length - n)

/-- The form that a list gives for a word. -/
def listed? (forms : List (String × String)) (word : Text) : Option Text :=
  (forms.find? (·.1.toList = word)).map (·.2.toList)

/-- What is dropped and added after some endings. -/
structure EndingChange where
  endings : List String
  drop : Nat
  add : String

/-- The word `w` after the first change whose endings fit; `l` is the word in lower case. -/
def changeEnding? (changes : List EndingChange) (w l : Text) : Option Text :=
  (changes.find? fun change => endsWithAny change.endings l).map fun change =>
    dropEnd change.drop w ++ change.add.toList

end TextGrammar
