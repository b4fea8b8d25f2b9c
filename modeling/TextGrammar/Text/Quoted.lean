import TextGrammar.Text.Printable
import TextGrammar.Text.Digit

/-!
# Quoted texts

A quoted text stands between single quotes, or between double quotes when it holds a single quote
and no double one. The quote that is used, the backslash and every character that cannot be shown
are escaped.
-/

namespace TextGrammar

/-- A number in hexadecimal digits, filled up with zeros to `width`. -/
def hexText (width n : Nat) : Text :=
  let digits := Nat.toDigits 16 n
  List.replicate (width - digits.length) '0' ++ digits

namespace Text

def quoteMark (t : Text) : Char :=
  if t.contains '\'' && !t.contains '"' then '"' else '\''

/-- A character as it is written between quotes `mark`. -/
def escapeChar (mark c : Char) : Text :=
  if c = mark || c = '\\' then ['\\', c]
  else if c = '\n' then ['\\', 'n']
  else if c = '\r' then ['\\', 'r']
  else if c = '\t' then ['\\', 't']
  else if isPrintable c then [c]
  else if c.toNat < 0x100 then '\\' :: 'x' :: hexText 2 c.toNat
  else if c.toNat < 0x10000 then '\\' :: 'u' :: hexText 4 c.toNat
  else '\\' :: 'U' :: hexText 8 c.toNat

def quoted (t : Text) : Text :=
  let mark := quoteMark t
  mark :: t.flatMap (escapeChar mark) ++ [mark]

end Text

end TextGrammar
