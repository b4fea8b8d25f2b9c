import TextGrammar.English.Ending
import TextGrammar.English.LooseLetter
import TextGrammar.English.NounClass

/-!
# Plurals of nouns

A noun that is a compound has the plural inside it: the part before a preposition, or before an
adjective such as `general`, is put into the plural. Any other noun is looked up among the words
that have a plural of their own, and then takes the ending that its own ending asks for.

## Main definitions

* `simplePlural` — the plural of a noun that is no compound.
* `compoundPlural?` — the plural of a compound.
* `nounPlural` — the plural of a noun.
* `modernWords` — the words of a plural, of two spellings the modern one.
-/

namespace TextGrammar

/-! ## Nouns that are no compounds -/

/-- The plural of a noun that is listed by itself or by its last part after a hyphen. -/
def listedPlural? (w l : Text) : Option Text :=
  let tail := l.reverse.takeWhile (· ≠ '-') |>.reverse
  let pair := (l.reverse.dropWhile (· ≠ '-')).drop 1 |>.takeWhile (· ≠ '-') |>.reverse
  let onPair := pair ++ ' ' :: tail
  match listed? personalPronouns l, listed? capitalNouns w, listed? irregularNouns tail with
  | some p, _, _ => some p
  | none, some p, _ => some p
  | none, none, some p => some (dropEnd tail.length w ++ p)
  | none, none, none => (listed? irregularPairs onPair).map (dropEnd onPair.length w ++ ·)

/-- The plural of a noun of a family whose plural is old, such as the men and the mice. -/
def familyPlural? (w l : Text) : Option Text :=
  if endsWith "man" l && endsWithAny namesInMans w then some (w ++ ['s'])
  else if l = "die".toList then some "dice".toList
  else if endsWith "louse" l then
    some (if isAmong nounsInLice l then dropEnd 5 w ++ "lice".toList else w ++ ['s'])
  else changeEnding? [
    ⟨["quy"], 1, "ies"⟩, ⟨["person"], 4, "ople"⟩, ⟨nounsInMans, 0, "s"⟩, ⟨["man"], 3, "men"⟩,
    ⟨["mouse"], 5, "mice"⟩, ⟨["goose"], 5, "geese"⟩, ⟨["tooth"], 5, "teeth"⟩,
    ⟨["foot"], 4, "feet"⟩, ⟨["taco"], 5, "tacos"⟩] w l

/-- The plural of a borrowed noun that keeps the plural of its own language. -/
def borrowedPlural? : (w l : Text) → Option Text :=
  changeEnding? [
    ⟨["ceps"], 0, ""⟩, ⟨["zoon"], 2, "a"⟩, ⟨["cis", "sis", "xis"], 2, "es"⟩,
    ⟨["czech", "eunuch", "stomach"], 0, "s"⟩,
    ⟨["codex", "murex", "silex", "radix", "helix"], 2, "ices"⟩,
    ⟨["bacterium", "agendum", "desideratum", "erratum", "stratum", "datum", "ovum", "extremum",
      "candelabrum"], 2, "a"⟩,
    ⟨["alumnus", "alveolus", "bacillus", "bronchus", "locus", "nucleus", "stimulus", "meniscus",
      "sarcophagus"], 2, "i"⟩,
    ⟨["criterion", "perihelion", "aphelion", "phenomenon", "prolegomenon", "noumenon", "organon",
      "asyndeton", "hyperbaton"], 2, "a"⟩,
    ⟨["alumna", "alga", "vertebra", "persona", "vita"], 0, "e"⟩]

/-- Whether a word begins like a name: with a character that is its own capital. -/
def startsLikeName : Text → Bool
  | [] => false
  | c :: _ => upperChar c = [c]

/-- The plural of a noun in the singular that ends with a hissing sound. -/
def sibilantPlural? (w l : Text) : Option Text :=
  if isAmong singularNounsInS l || endsWithAny singularEndingsInS l
      || (endsWith "es" l && startsLikeName w) then some (w ++ "es".toList)
  else changeEnding? [
    ⟨["quartz", "topaz", "zz"], 0, "es"⟩, ⟨["z"], 0, "zes"⟩, ⟨["ch", "sh", "x"], 0, "es"⟩] w l

/-- The plural of a noun in `f` or `fe` that is spoken with a `v`. -/
def voicedPlural? (w l : Text) : Option Text :=
  changeEnding? [
    ⟨["elf", "alf", "olf"], 1, "ves"⟩, ⟨["deaf"], 0, "s"⟩, ⟨["eaf"], 1, "ves"⟩,
    ⟨["nife", "life", "wife"], 2, "ves"⟩, ⟨["arf"], 1, "ves"⟩] w l

/-- The plural of a noun that ends with a vowel letter which changes. -/
def vowelPlural? (w l : Text) : Option Text :=
  if endsWith "y" l then
    some (if l.length = 1 || endsWithAny ["ay", "ey", "iy", "oy", "uy"] l || startsLikeName w
      then w ++ ['s'] else dropEnd 1 w ++ "ies".toList)
  else if endsWith "o" l then
    some (if isAmong shortNounsInOs l || endsWithAny nounsInOs l
        || endsWithAny ["ao", "eo", "io", "oo", "uo"] l
      then w ++ ['s'] else w ++ "es".toList)
  else none

/-- The plural of a noun that is no compound. -/
def simplePlural (w : Text) : Text :=
  let l := Text.lower w
  (listedPlural? w l
    <|> familyPlural? w l
    <|> borrowedPlural? w l
    <|> sibilantPlural? w l
    <|> voicedPlural? w l
    <|> vowelPlural? w l).getD (w ++ ['s'])

/-! ## Compounds -/

/-- The last place at which `part` is written inside a text, not at its start. -/
def lastPlace? (part t : Text) : Option Nat :=
  (List.range t.length).reverse.find? fun i => 1 ≤ i ∧ part.isPrefixOf (t.drop i)

/-- A compound with an adjective after its noun, cut before the hyphen of the adjective. -/
def cutAdjective? (w : Text) : Option (Text × Text) :=
  let l := looseText w
  let isRank := ["major", "lieutenant", "brigadier", "adjutant"].any (·.toList.isPrefixOf l)
    || Text.occursIn "star".toList l
  match if isRank then none else lastPlace? "-general".toList l with
  | some i => some (w.take i, w.drop i)
  | none =>
    if "court-martial".toList.isPrefixOf l || "pound-force".toList.isPrefixOf l
    then some (w.take 5, w.drop 5)
    else none

/-- The length of a preposition with the hyphens around it that begins a text and is followed by the
word `a` and a hyphen. -/
def prepositionBeforeA? (l : Text) : Option Nat :=
  match l with
  | '-' :: t =>
    match Text.cutAt '-' t with
    | (p, some ('a' :: '-' :: _)) => if isAmong prepositions p then some (p.length + 2) else none
    | _ => none
  | _ => none

/-- A compound such as `son-of-a-gun`: its first noun, the preposition with its hyphens, and the
second noun. -/
def cutPair? (w : Text) : Option (Text × Text × Text) :=
  let l := looseText w
  (List.range w.length).findSome? fun i =>
    (prepositionBeforeA? (l.drop i)).map fun n =>
      (w.take i, (w.drop i).take n, w.drop (i + n + 2))

/-- The place of the first preposition among the parts of a compound, neither the first part nor the
last one. -/
def prepositionPlace? (parts : List Text) : Option Nat :=
  (List.range (parts.length - 1)).find? fun i =>
    1 ≤ i ∧ (parts[i]?.map (isAmong prepositions)).getD false

/-- The plural of a compound such as `mother-in-law`. Before the noun and after the preposition the
other parts are divided by blanks. -/
def phrasePlural? (inner : Text → Text) (l : Text) : Option Text :=
  let (first, others) := Text.parts '-' l
  let parts := first :: others
  (prepositionPlace? parts).map fun i =>
    let noun := inner (parts[i - 1]?.getD []) ++ '-' :: parts[i]?.getD [] ++ ['-']
    Text.joined [' '] (parts.take (i - 1) ++ [noun]) ++ Text.joined [' '] (parts.drop (i + 1))

/-- The plural of a compound; `inner` gives the plurals of its parts. -/
def compoundPlural? (inner : Text → Text) (w : Text) : Option Text :=
  match cutAdjective? w with
  | some (noun, adjective) => some (inner noun ++ adjective)
  | none =>
    match cutPair? w with
    | some (noun, between, second) =>
      if second = [] then phrasePlural? inner (Text.lower w)
      else some (inner noun ++ between ++ inner second)
    | none => phrasePlural? inner (Text.lower w)

/-- Whether a noun is the same in the plural. -/
def isUnchanged (w : Text) : Bool :=
  let l := Text.lower w
  w.isEmpty || isAmong unchangedNouns l || isAmong unchangedNames w
    || endsWithAny unchangedEndings l

/-- The plural of a noun whose compounds lie at most `depth` deep in one another. -/
def nounPluralWithin : (depth : Nat) → Text → Text
  | 0, w => w
  | depth + 1, w =>
    if isUnchanged w then w
    else (compoundPlural? (nounPluralWithin depth) w).getD (simplePlural w)

/-- The plural of a noun, with both spellings when there are two. A part of a compound is shorter
than the compound, so that the length bounds the depth. -/
def nounPlural (w : Text) : Text := nounPluralWithin w.length w

/-! ## The modern spelling -/

def beforeBar (t : Text) : Text := (Text.cutAt '|' t).1

def spacedWords (t : Text) : List Text :=
  let (first, others) := Text.parts ' ' t
  first :: others

/-- The words of a plural. Of two spellings with as many words the modern one stands alone; else the
modern one is taken word by word. -/
def modernWords (p : Text) : List Text :=
  match Text.cutAt '|' p with
  | (_, none) => spacedWords p
  | (modern, some rest) =>
    if modern.count ' ' = (beforeBar rest).count ' ' then spacedWords modern
    else (spacedWords p).map beforeBar

end TextGrammar
