import TextGrammar.Text.Case

/-!
# Letters without case

Some rules of English spelling look at letters whatever their case is. Then the long s counts as an
s, and an i counts with a dot or without.

## Main definitions

* `looseLetter` — a letter without its case.
* `looseText` — a text of such letters.
-/

namespace TextGrammar

/-- A letter without its case; the dotless i and the long s count as i and s. -/
def looseLetter (c : Char) : Char :=
  if c = 'ı' || c = 'İ' then 'i'
  else if c = 'ſ' then 's'
  else (lowerChar c).headD c

/-- A text whose letters have lost their case, one for one. -/
def looseText (t : Text) : Text := t.map looseLetter

end TextGrammar
