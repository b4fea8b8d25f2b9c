import TextGrammar.Text.Integer

/-!
# Whole numbers as values of options

The value of an option is a whole number when it is written in ASCII digits, with a sign or without,
with single low lines between digits and blanks around. A fraction is allowed when it is nothing but
zeros. Zeros may stand in front, except after a minus sign; low lines among them do not count.

## Main definitions

* `readOptionNumber?` — the whole number that the value of an option is.
-/

namespace TextGrammar

/-- Whether a character can stand around the value of an option: white space but no separator of
files, groups, records or units. -/
def isOptionBlank (c : Char) : Bool := isSpace c && !(0x1C ≤ c.toNat && c.toNat ≤ 0x1F)

def withoutOptionBlanks (t : Text) : Text :=
  ((t.dropWhile isOptionBlank).reverse.dropWhile isOptionBlank).reverse

/-- Digits without the zeros in front, of which one is left when there is nothing else. -/
def withoutLeadingZeros (digits : Text) : Text :=
  match digits with
  | '0' :: _ =>
    match digits.dropWhile fun c => c = '0' || c = '_' with
    | [] => digits.getLast?.toList
    | rest => rest
  | _ => digits

/-- Whether what follows the point adds nothing. -/
def isEmptyFraction : Option Text → Bool
  | none => true
  | some zeros => !zeros.isEmpty && zeros.all (· = '0')

/-- The number that ASCII digits with single low lines between them write; it has no more digits
than a number can have. -/
def readDigits? (digits : Text) : Option (List Nat) :=
  if digits.all (fun c => c.isDigit || c = '_') then
    (digitValues? digits).filter (·.length ≤ maxIntegerDigits)
  else none

/-- The whole number that the value of an option is. -/
def readOptionNumber? (t : Text) : Option Int :=
  match withoutOptionBlanks t with
  | '-' :: t =>
    let (digits, fraction) := Text.cutAt '.' t
    match readDigits? digits with
    | none => none
    | some values =>
      if isEmptyFraction fraction && (values.length = 1 || values.head? ≠ some 0) then
        some (-(ofDigits 10 values : Int))
      else none
  | t =>
    let unsigned :=
      match t with
      | '+' :: t => t
      | t => t
    let (digits, fraction) := Text.cutAt '.' unsigned
    if isEmptyFraction fraction then
      (readDigits? (withoutLeadingZeros digits)).map fun values => (ofDigits 10 values : Int)
    else none

end TextGrammar
