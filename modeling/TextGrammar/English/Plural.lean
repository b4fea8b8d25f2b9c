import TextGrammar.English.Noun
import TextGrammar.English.Verb
import TextGrammar.Text.WordChar

/-!
# Plurals

Only the last word of a text is put into the plural. A word is taken for a determiner, a genitive, a
verb or a noun, in this order. A genitive is put into the plural before its mark. The plural begins
with a capital when the word is capitalized, and is in capitals when the word is.

## Main definitions

* `pluralizeLast` — a text with its last word changed, whatever the change is.
* `pluralWord` — the plural of a word, which a few words have not.
* `plural` — a text with its last word in the plural.
-/

namespace TextGrammar

/-- Whether a character continues a word: apostrophes and hyphens do. -/
def continuesWord (c : Char) : Bool := isWordChar c || c = '\'' || c = '-'

/-- A text with its last word changed by `change`. The word begins at the first ASCII letter from
which on there is only one run of word characters, apostrophes and hyphens. -/
def pluralizeLast (change : Text → Text) : Text → Text
  | [] => []
  | c :: t =>
    let tail := t.dropWhile continuesWord
    if c.isAlpha && tail.all (!isWordChar ·) then
      change (c :: t.takeWhile continuesWord) ++ tail
    else c :: pluralizeLast change t

/-! ## Capitals -/

/-- A text with its first character in upper case and all others in lower case. -/
def capitalized : Text → Text
  | [] => []
  | c :: t => upperChar c ++ Text.lower t

/-- A word with the capitals of another one; the pronoun `I` lends its capital to nothing. -/
def inCapitalsOf (model w : Text) : Text :=
  if model = ['I'] then w
  else
    let w := if model = capitalized model then capitalized w else w
    if model = Text.upper model then Text.upper w else w

/-- The modern spelling of a plural, whose first word has the capitals of the word in the
singular. -/
def finished (singular p : Text) : Text :=
  match modernWords p with
  | [] => []
  | w :: others => Text.joined [' '] (inCapitalsOf singular w :: others)

/-! ## Determiners and genitives -/

def determiners : List (String × String) := [
  ("a", "some"), ("an", "some"), ("this", "these"), ("that", "those"), ("my", "our"),
  ("your", "your"), ("its", "their"), ("her", "their"), ("his", "their"), ("their", "their")]

/-- A word in the genitive without its mark. -/
def genitiveStem? (w : Text) : Option Text :=
  if endsWith "'s" w then some (dropEnd 2 w)
  else if endsWith "'" w then some (dropEnd 1 w)
  else none

def genitive (p : Text) : Text := p ++ (if endsWith "s" p then "'" else "'s").toList

/-! ## Words -/

/-- The plural of a determiner. A word reads as one whatever its case is, but it is looked up in
lower case, which spells it otherwise when it holds a long s or another i. -/
def determinerPlural (w : Text) : Except Text Text :=
  match listed? determiners (Text.lower w) with
  | some p => .ok p
  | none => .error (Text.lower w)

/-- The plural of a word, in both spellings when there are two. -/
def pluralForm (w : Text) : Except Text Text :=
  if (listed? determiners (looseText w)).isSome then determinerPlural w
  else
    match genitiveStem? w with
    | some stem => .ok (genitive (finished stem (nounPlural stem)))
    | none => .ok ((verbPlural? w).getD (nounPlural w))

/-- The plural of a word, or the key that is missed when it has none. -/
def pluralWord (w : Text) : Except Text Text := (pluralForm w).map (finished w)

/-- The last word of a text. -/
def lastWord? : Text → Option Text
  | [] => none
  | c :: t =>
    if c.isAlpha && (t.dropWhile continuesWord).all (!isWordChar ·) then
      some (c :: t.takeWhile continuesWord)
    else lastWord? t

def plural (t : Text) : Except Text Text :=
  match lastWord? t with
  | some w => (pluralWord w).map fun p => pluralizeLast (fun _ => p) t
  | none => .ok t

end TextGrammar
