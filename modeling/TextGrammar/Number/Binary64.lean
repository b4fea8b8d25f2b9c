/-!
# Binary floating-point numbers of 64 bits

A finite number is a whole number of 53 bits times a power of two. Every result is the exact result
rounded to the nearest number, and a tie goes to the even one; numbers beyond the largest one are
infinite.

## Main definitions

* `Binary64` — the numbers.
* `Binary64.ofRatio` — a fraction, rounded.
* `Binary64.add`, `Binary64.mul` — rounded sums and products.
* `Binary64.same` — equality of values: the two zeros are equal, and nothing equals `nan`.
-/

namespace TextGrammar

inductive Binary64 where
  | nan
  | infinite (negative : Bool)
  /-- The number `± mantissa * 2 ^ exponent`, with a mantissa below `2 ^ 53` that is at least
  `2 ^ 52` unless the exponent is the least one, `-1074`. -/
  | finite (negative : Bool) (mantissa : Nat) (exponent : Int)
deriving DecidableEq

/-- The quotient of two numbers, rounded to the nearest; a tie goes to the even number. -/
def roundDiv (num den : Nat) : Nat :=
  let q := num / den
  let r := num % den
  if 2 * r > den ∨ (2 * r = den ∧ q % 2 = 1) then q + 1 else q

/-- The fraction `num / den` divided by `2 ^ e`. -/
def shiftRatio (num den : Nat) (e : Int) : Nat × Nat :=
  if e ≥ 0 then (num, den * Nat.pow 2 e.toNat) else (num * Nat.pow 2 (-e).toNat, den)

namespace Binary64

def zero (negative : Bool) : Binary64 := finite negative 0 (-1074)

/-- The exponent for a fraction that is not zero: it leaves 53 bits before the point, or fewer when
the exponent would be less than the least one. -/
def exponentOf (num den : Nat) : Int :=
  let e : Int := (num.log2 : Int) - (den.log2 : Int) - 52
  let (n, d) := shiftRatio num den e
  max (if n / d ≥ Nat.pow 2 52 then e else e - 1) (-1074)

/-- The fraction `± num / den`, rounded. -/
def ofRatio (negative : Bool) (num den : Nat) : Binary64 :=
  if num = 0 then zero negative
  else
    let e := exponentOf num den
    let (n, d) := shiftRatio num den e
    let m := roundDiv n d
    let (m, e) := if m = Nat.pow 2 53 then (Nat.pow 2 52, e + 1) else (m, e)
    if e > 971 then infinite negative else finite negative m e

/-- The number `± digits * 10 ^ exponent`, rounded. Numbers far outside the range are not worked
out. -/
def ofDecimal (negative : Bool) (digits : Nat) (exponent : Int) : Binary64 :=
  if digits = 0 then zero negative
  else
    let magnitude : Int := (Nat.toDigits 10 digits).length + exponent
    if magnitude > 320 then infinite negative
    else if magnitude < -340 then zero negative
    else if exponent ≥ 0 then ofRatio negative (digits * Nat.pow 10 exponent.toNat) 1
    else ofRatio negative digits (Nat.pow 10 (-exponent).toNat)

/-- A finite number as a whole number times `2 ^ -1074`. -/
def units : Bool → Nat → Int → Int
  | negative, m, e =>
    let n : Int := (m * Nat.pow 2 (e + 1074).toNat : Nat)
    if negative then -n else n

def add : Binary64 → Binary64 → Binary64
  | nan, _ => nan
  | _, nan => nan
  | infinite s, infinite t => if s = t then infinite s else nan
  | infinite s, finite .. => infinite s
  | finite .., infinite t => infinite t
  | finite s m e, finite t n f =>
    let sum := units s m e + units t n f
    if sum = 0 then zero (s && t) else ofRatio (sum < 0) sum.natAbs (Nat.pow 2 1074)

def mul : Binary64 → Binary64 → Binary64
  | nan, _ => nan
  | _, nan => nan
  | infinite s, infinite t => infinite (s != t)
  | infinite s, finite t n _ => if n = 0 then nan else infinite (s != t)
  | finite s m _, infinite t => if m = 0 then nan else infinite (s != t)
  | finite s m e, finite t n f =>
    let (p, q) := shiftRatio (m * n) 1 (-(e + f))
    ofRatio (s != t) p q

def negate : Binary64 → Binary64
  | nan => nan
  | infinite s => infinite (!s)
  | finite s m e => finite (!s) m e

/-- Whether two numbers have the same value. -/
def same : Binary64 → Binary64 → Bool
  | infinite s, infinite t => s = t
  | finite s m e, finite t n f => units s m e = units t n f
  | _, _ => false

/-- Whether a number has the value of a whole number. -/
def sameInt : Binary64 → Int → Bool
  | finite s m e, i => units s m e = i * (Nat.pow 2 1074 : Nat)
  | _, _ => false

end Binary64

end TextGrammar
