import TextGrammar.English.LooseLetter
import TextGrammar.Text.WhiteSpace
import TextGrammar.Text.WordChar

/-!
# The indefinite article

The article is chosen by how the first word begins, and mostly by its first letters: `an` before a
vowel, but `a` before one that is spoken like a consonant, `an` before letters that are read one by
one and begin with a vowel when read. An article that is already there is replaced. Only a text that
lies on one line gets an article.

## Main definitions

* `articleOf` — the article for a word.
* `withArticle` — a text with the article in front.
-/

namespace TextGrammar

def startsIn (letters : String) : Text → Bool
  | [] => false
  | c :: _ => letters.toList.contains c

def startsWithAny (words : List String) (t : Text) : Bool :=
  words.any fun w => w.toList.isPrefixOf t

/-- Whether `word` begins a text and ends there at a word's end. -/
def startsWithWord (word : String) (t : Text) : Bool :=
  match Text.dropStart? word.toList t with
  | some [] => true
  | some (c :: _) => !isWordChar c
  | none => false

/-- Whether a word is an ordinal such as `nth`, written with one of `letters`. -/
def isOrdinal (letters : String) (w : Text) : Bool :=
  startsIn letters w && startsWithAny ["th", "-th"] w.tail

def isLetter (letters : String) (w : Text) : Bool := w.length = 1 && startsIn letters w

/-- The starts of capitals that are read as a word, although they begin with a letter whose name
begins with a vowel: a consonant or a group of them that may begin a word, and a vowel. -/
def readsAsWord (w : Text) : Bool :=
  startsWithAny ["FJO", "RYE", "RYO", "SQU"] w
    || (startsIn "HLMNS" w && startsIn "Y" w.tail && w.length ≥ 3 && w[2]? != some '\n')
    || ["F", "FL", "FR", "H", "L", "M", "MN", "N", "R", "RH", "S", "SC", "SH", "SK", "SL", "SM",
        "SN", "SP", "ST", "SV", "SW", "X", "XYL"].any fun onset =>
      match Text.dropStart? onset.toList w with
      | some rest => startsIn "AEIOU" rest
      | none => false

/-- Whether a word begins with capitals that are read letter by letter, the first of them with a
vowel. -/
def isSpelledOut (w : Text) : Bool :=
  !readsAsWord w && startsIn "FHLMNRSX" w
    && startsIn "ABCDEFGHIJKLMNOPQRSTUVWXYZ" w.tail

/-- Whether a word begins with `u` spoken as `you`, by its letters without case. -/
def startsLikeYou (w : Text) : Bool :=
  (startsWithAny ["uni"] w
      && ((w.drop 3 ≠ [] && !startsIn "nmd" (w.drop 3)) || startsWithAny ["unimo"] w))
    || (startsIn "u" w && startsIn "bcfghjkqrst" w.tail && startsIn "aeiou" (w.drop 2))
    || startsWithAny ["ukr", "unabomber", "unanimous", "us"] w

def takesAn (w : Text) : Bool :=
  let l := looseText w
  if isOrdinal "bcdgjkpqtuvwyz" l then false
  else if isOrdinal "aefhilmnorsx" l then true
  else if startsWithAny ["euler", "heir", "honest", "honor", "honou", "mpeg"] l
      || (startsWithAny ["hour"] l && !startsWithAny ["houri"] l) then true
  else if isLetter "aefhilmnorsx" l then true
  else if isLetter "bcdgjkpqtuvwyz" l then false
  else if isSpelledOut w then true
  else if startsIn "aefhilmnorsx" l && startsIn ".-" l.tail then true
  else if startsIn "abcdefghijklmnopqrstuvwxyz" l && startsIn ".-" l.tail then false
  else if !startsIn "aeiouy" l then false
  else if startsWithAny ["eu", "ew"] l || startsWithWord "one" l || startsWithWord "once" l
      || startsWithWord "onetime" l then false
  else if startsLikeYou l then false
  else if startsWithAny ["UN", "UK"] w then false
  else if startsIn "aeiou" l then true
  else startsWithAny
    ["ybl", "ybo", "ybr", "ycla", "ycle", "yfere", "ygg", "ypi", "ypo", "yps", "yrou", "ytt"] l

def articleOf (w : Text) : Text := if takesAn w then ['a', 'n'] else ['a']

/-- A nonempty text that begins on this line: up to its trailing white space, of which it keeps what
it needs to be nonempty, and the rest; `none` when it spans lines. -/
def oneLine? (t : Text) : Option (Text × Text) :=
  let body := Text.stripEnd t
  let body := if body = [] then t.take 1 else body
  if body = [] ∨ body.contains '\n' then none else some (body, t.drop body.length)

/-- What follows an article and the white space after it, first without all of that white space,
then without less and less of it. -/
def afterArticle (t : Text) : List Text :=
  let rest :=
    match looseText t with
    | 'a' :: 'n' :: c :: _ => if isSpace c then t.drop 2 else []
    | 'a' :: c :: _ => if isSpace c then t.drop 1 else []
    | _ => []
  let blanks := rest.length - (Text.stripStart rest).length
  (List.range blanks).map fun i => rest.drop (blanks - i)

/-- A text with the indefinite article in front of its first word; a blank text stays as it is, and
one that spans lines is lost. -/
def withArticle (t : Text) : Text :=
  if Text.isBlank t then t
  else
    let rest := Text.stripStart t
    match (afterArticle rest ++ [rest]).findSome? oneLine? with
    | some (body, trailing) =>
      t.takeWhile isSpace ++ articleOf body ++ ' ' :: body ++ trailing
    | none => []

end TextGrammar
