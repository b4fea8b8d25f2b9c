import TextGrammar.Text.Case
import TextGrammar.Text.WhiteSpace

/-!
# Capitals at the start of a sentence and of words

Only first characters change; everything else, white space included, stays as it is. The upper case
of a character is a parameter, so that what follows needs no table.
-/

namespace TextGrammar

/-- A text with its first character in upper case. -/
def sentenceCaseWith (upper : Char → Text) : Text → Text
  | [] => []
  | c :: t => upper c ++ t

/-- The rest of a text with the first character of every word in upper case; `inWord` says whether
the character before it belongs to a word. -/
def titleCaseFrom (upper : Char → Text) : (inWord : Bool) → Text → Text
  | _, [] => []
  | inWord, c :: t =>
    (if isSpace c || inWord then [c] else upper c) ++ titleCaseFrom upper (!isSpace c) t

def sentenceCase (t : Text) : Text := sentenceCaseWith upperChar t

/-- A text with the first character of every word in upper case; a word is a run of characters that
are not white space. -/
def titleCase (t : Text) : Text := titleCaseFrom upperChar false t

end TextGrammar
