import TextGrammar.Number.Shortest
import TextGrammar.Text.Digit

/-!
# Floating-point numbers as text

A number is written with the fewest digits that read back. A number of at least `10 ^ 16` or below
`10 ^ -4` is written with an exponent of two digits or more and its sign; every other one has a
point with a digit on both sides.

## Main definitions

* `Binary64.text` — a number as it is written.
* `Binary64.read?` — the number that a text writes.
-/

namespace TextGrammar

/-- Digits with a point after the first one, when there is more than one. -/
def pointedText : Text → Text
  | [] => []
  | [d] => [d]
  | d :: rest => d :: '.' :: rest

/-- Digits whose first one has the place `leading`, with a point and without an exponent. -/
def positionalText (digits : Text) (leading : Int) : Text :=
  if leading < 0 then '0' :: '.' :: List.replicate ((-leading).toNat - 1) '0' ++ digits
  else
    let whole := leading.toNat + 1
    let tail := digits.drop whole
    digits.take whole ++ List.replicate (whole - digits.length) '0' ++
      '.' :: (if tail = [] then ['0'] else tail)

/-- Digits whose first one has the place `leading`, with an exponent. -/
def exponentText (digits : Text) (leading : Int) : Text :=
  let size := decimalText leading.natAbs
  pointedText digits ++ ['e', if leading < 0 then '-' else '+'] ++
    List.replicate (2 - size.length) '0' ++ size

/-- The fewest digits of a number that is not zero, without zeros at the end, and the place of the
first one. -/
def significantDigits (mantissa : Nat) (exponent : Int) : Text × Int :=
  let (digits, place) := shortestDigits mantissa exponent
  let text := decimalText digits
  ((text.reverse.dropWhile (· = '0')).reverse, place + (text.length : Int) - 1)

namespace Binary64

def text : Binary64 → Text
  | nan => "nan".toList
  | infinite negative => (if negative then "-inf" else "inf").toList
  | finite negative mantissa exponent =>
    let sign : Text := if negative then ['-'] else []
    if mantissa = 0 then sign ++ "0.0".toList
    else
      let (digits, leading) := significantDigits mantissa exponent
      sign ++ (if -4 ≤ leading ∧ leading < 16 then positionalText digits leading
        else exponentText digits leading)

def takeSign : Text → Bool × Text
  | '-' :: t => (true, t)
  | '+' :: t => (false, t)
  | t => (false, t)

def digitsValue (t : Text) : Nat := ofDigits 10 (t.map fun c => c.toNat - 48)

/-- The exponent that is written at the end of a number: a mark, a sign and digits, or nothing. -/
def readExponent? : Text → Option Int
  | [] => some 0
  | c :: t =>
    let (negative, digits) := takeSign t
    if (c = 'e' || c = 'E') && digits ≠ [] && digits.all Char.isDigit then
      some (if negative then -(digitsValue digits : Int) else digitsValue digits)
    else none

/-- The number that a text writes: a sign, digits with at most one point among them, an exponent.
The words `inf` and `nan` stand for the values that digits cannot write. -/
def read? (t : Text) : Option Binary64 :=
  let (negative, t) := takeSign t
  if t = "inf".toList then some (infinite negative)
  else if t = "nan".toList then some nan
  else
    let whole := t.takeWhile Char.isDigit
    let rest := t.dropWhile Char.isDigit
    let (fraction, rest) :=
      match rest with
      | '.' :: rest => (rest.takeWhile Char.isDigit, rest.dropWhile Char.isDigit)
      | rest => ([], rest)
    if whole = [] && fraction = [] then none
    else
      (readExponent? rest).map fun e =>
        ofDecimal negative (digitsValue (whole ++ fraction)) (e - fraction.length)

end Binary64

end TextGrammar
