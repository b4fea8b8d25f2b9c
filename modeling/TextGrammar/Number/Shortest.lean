import TextGrammar.Number.Binary64

/-!
# The fewest digits that read back

Of the decimal numbers that round to a given floating-point number, those with the fewest digits are
taken, and of these the nearest to it. The digits are searched for length by length: on the grid of
decimal numbers of a length, only the two neighbours of the number need to be looked at.
-/

namespace TextGrammar

structure Fraction where
  num : Nat
  /-- The denominator, not zero. -/
  den : Nat

namespace Fraction

def scaled (n base : Nat) (e : Int) : Fraction :=
  if e ≥ 0 then ⟨n * Nat.pow base e.toNat, 1⟩ else ⟨n, Nat.pow base (-e).toNat⟩

def lt (a b : Fraction) : Bool := a.num * b.den < b.num * a.den

def distance (a b : Fraction) : Fraction :=
  ⟨(a.num * b.den - b.num * a.den) + (b.num * a.den - a.num * b.den), a.den * b.den⟩

/-- The place of the first digit of a fraction that is not zero: `0` for the ones. -/
def leadingPlace (a : Fraction) : Int :=
  if a.num ≥ a.den then ((Nat.toDigits 10 (a.num / a.den)).length : Int) - 1
  else -((Nat.toDigits 10 ((a.den + a.num - 1) / a.num - 1)).length : Int)

end Fraction

/-- The fractions that round to `mantissa * 2 ^ exponent` lie between these two. -/
def roundingInterval (mantissa : Nat) (exponent : Int) : Fraction × Fraction :=
  let low :=
    if mantissa = Nat.pow 2 52 ∧ exponent > -1074 then .scaled (4 * mantissa - 1) 2 (exponent - 2)
    else .scaled (2 * mantissa - 1) 2 (exponent - 1)
  (low, .scaled (2 * mantissa + 1) 2 (exponent - 1))

/-- Whether a fraction rounds to `mantissa * 2 ^ exponent`: the ends of the interval do so when the
mantissa is even. -/
def roundsTo (mantissa : Nat) (exponent : Int) (a : Fraction) : Bool :=
  let (low, high) := roundingInterval mantissa exponent
  if mantissa % 2 = 0 then !a.lt low && !high.lt a else low.lt a && a.lt high

/-- Of the two neighbours of `mantissa * 2 ^ exponent` among the multiples of `10 ^ place`, the one
to write: the nearer of those that round to it, the even one when both are equally near. -/
def neighbour? (mantissa : Nat) (exponent place : Int) : Option Nat :=
  let value := Fraction.scaled mantissa 2 exponent
  let unit := Fraction.scaled 1 10 place
  let below := (value.num * unit.den) / (value.den * unit.num)
  let fits (n : Nat) := n ≠ 0 ∧ roundsTo mantissa exponent (.scaled n 10 place)
  let down := (Fraction.scaled below 10 place).distance value
  let up := (Fraction.scaled (below + 1) 10 place).distance value
  if fits below ∧ (¬fits (below + 1) ∨ down.lt up ∨ (¬up.lt down ∧ below % 2 = 0)) then some below
  else if fits (below + 1) then some (below + 1)
  else none

/-- The digits and the place of the last one, found with at most `more` digits more than
`length`. -/
def shortestFrom (mantissa : Nat) (exponent leading : Int) :
    (more length : Nat) → Nat × Int
  | 0, _ => (0, 0)
  | more + 1, length =>
    let place := leading - (length : Int) + 1
    match neighbour? mantissa exponent place with
    | some digits => (digits, place)
    | none => shortestFrom mantissa exponent leading more (length + 1)

/-- The fewest digits that read back as `mantissa * 2 ^ exponent`, which is not zero, and the place
of the last digit; seventeen digits are always enough. -/
def shortestDigits (mantissa : Nat) (exponent : Int) : Nat × Int :=
  shortestFrom mantissa exponent (Fraction.scaled mantissa 2 exponent).leadingPlace 18 1

end TextGrammar
