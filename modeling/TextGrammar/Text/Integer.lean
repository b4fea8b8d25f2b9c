import TextGrammar.Text.Digit
import TextGrammar.Text.WhiteSpace

/-!
# Reading whole numbers

A whole number is written with a sign or without, in decimal digits of any script, with single low
lines between digits and white space around. Numbers of more than 4300 digits are refused.
-/

namespace TextGrammar

def maxIntegerDigits : Nat := 4300

/-- The values of digits with single low lines between them; `none` when anything else is there. -/
def digitValues? : Text → Option (List Nat)
  | [] => none
  | [c] => (decimalValue? c).map ([·])
  | c :: '_' :: t => do
    let d ← decimalValue? c
    let ds ← digitValues? t
    pure (d :: ds)
  | c :: t => do
    let d ← decimalValue? c
    let ds ← digitValues? t
    pure (d :: ds)

def readInteger? (t : Text) : Option Int :=
  let t := Text.strip t
  let (negative, digits) :=
    match t with
    | '-' :: t => (true, t)
    | '+' :: t => (false, t)
    | t => (false, t)
  match digitValues? digits with
  | none => none
  | some values =>
    if values.length > maxIntegerDigits then none
    else
      let n : Int := ofDigits 10 values
      some (if negative then -n else n)

end TextGrammar
