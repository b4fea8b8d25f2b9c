import TextGrammar.Yaml.Token
import TextGrammar.Text.Integer
import TextGrammar.Value.Basic

/-!
# What plain scalars mean

A scalar without quotes can be nothing, a truth value, a number or a date; everything else is a
text. Whole numbers are written in base 10, in base 2 after `0b`, in base 8 after `0`, in base 16
after `0x`, or as numbers below 60 between colons. Low lines between digits have no meaning. A date
is written as year, month and day, with a time of day behind it or alone. Two scalars are marks when
they stand for a key: `<<` merges another mapping, and `=` is a text like any other.

## Main definitions

* `Yaml.Meaning` — what a plain scalar can mean.
* `Yaml.meaning` — what it means.
-/

namespace TextGrammar

namespace Yaml

/-- What a plain scalar can mean. -/
inductive Meaning where
  | value (v : Value)
  /-- A mark that merges another mapping into the one around it. -/
  | merge
  /-- A mark that is a text when it stands for a key, and means nothing elsewhere. -/
  | ownValue

def nullWords : List Text := ["", "~", "null", "Null", "NULL"].map (·.toList)

def trueWords : List Text :=
  ["yes", "Yes", "YES", "true", "True", "TRUE", "on", "On", "ON"].map (·.toList)

def falseWords : List Text :=
  ["no", "No", "NO", "false", "False", "FALSE", "off", "Off", "OFF"].map (·.toList)

/-- The words for infinity, after the sign. -/
def infiniteWords : List Text := [".inf", ".Inf", ".INF"].map (·.toList)

def nanWords : List Text := [".nan", ".NaN", ".NAN"].map (·.toList)

/-! ## Digits -/

def isDigitOrLine (c : Char) : Bool := c.isDigit || c = '_'

def withoutLines (t : Text) : Text := t.filter (· ≠ '_')

/-- Whether a text begins with a digit that satisfies `p`, and goes on with digits and low lines. -/
def isDigits (p : Char → Bool) : Text → Bool
  | [] => false
  | c :: t => c.isDigit && p c && t.all isDigitOrLine

def isSixtieth : Text → Bool
  | [d] => d.isDigit
  | [c, d] => '0' ≤ c && c ≤ '5' && d.isDigit
  | _ => false

/-- The parts of a number in base 60, as they are written between colons: at least two, the first
one beginning with a digit that satisfies `p`. -/
def sixtieths? (p : Char → Bool) (t : Text) : Option (List Text) :=
  let (first, others) := Text.parts ':' t
  if isDigits p first && others ≠ [] && others.all isSixtieth then some (first :: others) else none

/-! ## Floating-point numbers -/

/-- The exponent at the end of a number: a mark, a sign, which cannot be left out, and digits, or
nothing. -/
def exponent? (t : Text) : Option Int :=
  match t with
  | _ :: c :: _ => if c = '-' ∨ c = '+' then Binary64.readExponent? t else none
  | _ => Binary64.readExponent? t

/-- The sum of numbers, each times its power of 60; the number for `power` comes first. A power that
is no floating-point number has no product. -/
def sixtiethsSum (sum : Binary64) (power : Nat) : List Binary64 → Except Fault Binary64
  | [] => .ok sum
  | x :: xs =>
    match Binary64.ofRatio false power 1 with
    | .infinite _ => .error .badNumber
    | factor => sixtiethsSum (sum.add (x.mul factor)) (power * 60) xs

/-- The floating-point number that a text writes, if it writes one. -/
def float? (t : Text) : Option (Except Fault Binary64) :=
  let (negative, unsigned) := Binary64.takeSign t
  let (whole, rest) := Text.cutAt '.' unsigned
  match rest with
  | none => none
  | some rest =>
    let fraction := rest.takeWhile isDigitOrLine
    let number (exponent : Int) : Except Fault Binary64 :=
      let (whole, fraction) := (withoutLines whole, withoutLines fraction)
      .ok (.ofDecimal negative (Binary64.digitsValue (whole ++ fraction))
        (exponent - fraction.length))
    if infiniteWords.contains unsigned then some (.ok (.infinite negative))
    else if nanWords.contains t then some (.ok .nan)
    else
      match exponent? (rest.dropWhile isDigitOrLine) with
      | none => none
      | some exponent =>
        if isDigits (fun _ => true) whole
            || (t.head? = some '.' && isDigits (fun _ => true) fraction) then
          some (number exponent)
        else
          match sixtieths? (fun _ => true) whole with
          | some parts =>
            if fraction = rest then
              let places := withoutLines fraction
              let values := parts.map fun p => Binary64.digitsValue (withoutLines p)
              let last := Binary64.ofDecimal false
                (values.getLast?.getD 0 * Nat.pow 10 places.length + Binary64.digitsValue places)
                (-places.length)
              let others := values.dropLast.map fun n => Binary64.ofDecimal false n 0
              some ((sixtiethsSum (.zero false) 1 (last :: others.reverse)).map fun x =>
                if negative then x.negate else x)
            else none
          | none => none

/-! ## Whole numbers -/

/-- The digits of a base with their values; low lines are skipped. -/
def valueIn (base : Nat) (digits : Text) : Nat :=
  ofDigits base ((withoutLines digits).filterMap fun c =>
    if c.isDigit then some (c.toNat - 48)
    else if 'a' ≤ c ∧ c ≤ 'f' then some (c.toNat - 87)
    else if 'A' ≤ c ∧ c ≤ 'F' then some (c.toNat - 55)
    else none)

def isOctal (c : Char) : Bool := ('0' ≤ c && c ≤ '7') || c = '_'

def isHexadecimal (c : Char) : Bool :=
  isDigitOrLine c || ('a' ≤ c && c ≤ 'f') || ('A' ≤ c && c ≤ 'F')

/-- The number that digits write; there has to be one at least. -/
def digitsIn (base : Nat) (digits : Text) : Except Fault Nat :=
  if withoutLines digits = [] then .error .badNumber else .ok (valueIn base digits)

/-- The number that decimal digits write; there cannot be too many of them. -/
def decimalIn (digits : Text) : Except Fault Nat :=
  if (withoutLines digits).length > maxIntegerDigits then .error .badNumber
  else .ok (valueIn 10 digits)

/-- The number without a sign that a text writes, if it writes one. -/
def natural? (t : Text) : Option (Except Fault Nat) :=
  match t with
  | ['0'] => some (.ok 0)
  | '0' :: 'b' :: c :: digits =>
    if (c :: digits).all fun d => d = '0' || d = '1' || d = '_' then some (digitsIn 2 (c :: digits))
    else none
  | '0' :: 'x' :: c :: digits =>
    if (c :: digits).all isHexadecimal then some (digitsIn 16 (c :: digits)) else none
  | '0' :: digits => if digits.all isOctal then some (.ok (valueIn 8 digits)) else none
  | t =>
    if isDigits (· ≠ '0') t then some (decimalIn t)
    else
      (sixtieths? (· ≠ '0') t).map fun parts => do
        let values ← parts.mapM decimalIn
        pure (ofDigits 60 values)

/-- The whole number that a text writes, if it writes one. -/
def integer? (t : Text) : Option (Except Fault Int) :=
  let (negative, unsigned) := Binary64.takeSign t
  (natural? unsigned).map fun n => n.map fun n => if negative then -(n : Int) else n

/-! ## Dates -/

/-- The number that a text begins with, in at least `least` and at most `most` digits, and the
rest. -/
def takeNumber? (least most : Nat) (t : Text) : Option (Nat × Text) :=
  let digits := (t.takeWhile Char.isDigit).take most
  if digits.length < least then none
  else some (Binary64.digitsValue digits, t.drop digits.length)

/-- What stands after a mark at the start of a text. -/
def afterMark? (mark : Char) : Text → Option Text
  | [] => none
  | c :: t => if c = mark then some t else none

def isBlank (c : Char) : Bool := c = ' ' || c = '\t'

/-- How many minutes a clock is ahead, as the end of a time tells it: not at all, by a `Z`, or in
hours, with minutes or without, after a sign. -/
def ahead? (t : Text) : Option (Option Int) :=
  if t = [] then some none
  else
    match t.dropWhile isBlank with
    | ['Z'] => some (some 0)
    | sign :: t =>
      if sign = '+' ∨ sign = '-' then do
        let (hours, t) ← takeNumber? 1 2 t
        let minutes ←
          if t = [] then some 0
          else do
            let (minutes, t) ← takeNumber? 2 2 (← afterMark? ':' t)
            if t = [] then some minutes else none
        let ahead : Int := hours * 60 + minutes
        pure (some (if sign = '-' then -ahead else ahead))
      else none
    | [] => none

/-- What stands after the mark between a day and a time: a `T` or blanks. -/
def afterDay? : Text → Option Text
  | [] => none
  | c :: t =>
    if c = 'T' ∨ c = 't' then some t
    else if isBlank c then some (t.dropWhile isBlank)
    else none

/-- The time of day that is written after a day: hours, minutes, seconds with places behind a point
or without, and how far the clock is ahead. -/
def clock? (t : Text) : Option (Except Fault Clock) := do
  let (hour, t) ← takeNumber? 1 2 (← afterDay? t)
  let (minute, t) ← takeNumber? 2 2 (← afterMark? ':' t)
  let (second, t) ← takeNumber? 2 2 (← afterMark? ':' t)
  let (places, t) := ((afterMark? '.' t).elim ([], t)) fun t => t.span Char.isDigit
  let micro := Binary64.digitsValue ((places ++ List.replicate 6 '0').take 6)
  let ahead ← ahead? t
  pure ((Clock.of? hour minute second micro ahead).elim (.error .badDate) .ok)

/-- The date that a text writes, if it writes one. A day without a time of day has two digits for
the month and two for the day. -/
def date? (t : Text) : Option (Except Fault Date) := do
  let (year, rest) ← takeNumber? 4 4 t
  let (month, rest) ← takeNumber? 1 2 (← afterMark? '-' rest)
  let (day, rest) ← takeNumber? 1 2 (← afterMark? '-' rest)
  let day : Except Fault Day := (Day.of? year month day).elim (.error .badDate) .ok
  if rest = [] then
    if t.length = 10 then pure (day.map (⟨·, none⟩)) else none
  else
    let clock ← clock? rest
    pure (do pure ⟨← day, some (← clock)⟩)

/-! ## Meanings -/

def meaning (t : Text) : Except Fault Meaning :=
  if nullWords.contains t then .ok (.value .null)
  else if trueWords.contains t then .ok (.value (.truth true))
  else if falseWords.contains t then .ok (.value (.truth false))
  else if t = "<<".toList then .ok .merge
  else if t = "=".toList then .ok .ownValue
  else
    match float? t, integer? t, date? t with
    | some x, _, _ => x.map fun x => .value (.float x)
    | none, some i, _ => i.map fun i => .value (.integer i)
    | none, none, some d => d.map fun d => .value (.date d)
    | none, none, none => .ok (.value (.text t))

end Yaml

end TextGrammar
