import TextGrammar.Text.Basic
import TextGrammar.Text.Digit
import TextGrammar.Text.Quoted

/-!
# Characters from bytes

A file's bytes are read as UTF-8, byte by byte. The first byte of a character tells how many follow
and in which range the next one lies; the others lie between `0x80` and `0xBF`. Bytes that cannot be
part of a character are refused with the bytes of the character that were read before them.

## Main definitions

* `decodeUtf8` — the characters of bytes, or why there are none.
* `Utf8Fault.message` — why bytes are refused, in words.
-/

namespace TextGrammar

inductive Utf8Problem where
  | start
  | continuation
  | ending
deriving DecidableEq

/-- Why and where bytes are refused; `byte` is the first of them. -/
structure Utf8Fault where
  problem : Utf8Problem
  position : Nat
  /-- How many bytes belong to the broken character. -/
  length : Nat
  byte : Nat
deriving DecidableEq

def Utf8Problem.text : Utf8Problem → Text
  | start => "invalid start byte".toList
  | continuation => "invalid continuation byte".toList
  | ending => "unexpected end of data".toList

def Utf8Fault.message (f : Utf8Fault) : Text :=
  "'utf-8' codec can't decode ".toList ++
    (if f.length = 1 then
      "byte 0x".toList ++ hexText 2 f.byte ++ " in position ".toList ++ decimalText f.position
    else
      "bytes in position ".toList ++ decimalText f.position ++ '-' ::
        decimalText (f.position + f.length - 1)) ++ ": ".toList ++ f.problem.text

/-- A character of which some bytes have been read; the next one lies between `low` and `high`. -/
structure PartialChar where
  first : Nat
  taken : Nat
  /-- How many are still to come, at least one. -/
  owed : Nat
  low : Nat
  high : Nat
  bits : Nat

/-- The character that a byte begins, when more bytes belong to it. -/
def PartialChar.ofFirst? (b : Nat) : Option PartialChar :=
  if b < 0xC2 then none
  else if b ≤ 0xDF then some ⟨b, 1, 1, 0x80, 0xBF, b % 0x20⟩
  else if b = 0xE0 then some ⟨b, 1, 2, 0xA0, 0xBF, 0⟩
  else if b = 0xED then some ⟨b, 1, 2, 0x80, 0x9F, 0xD⟩
  else if b ≤ 0xEF then some ⟨b, 1, 2, 0x80, 0xBF, b % 0x10⟩
  else if b = 0xF0 then some ⟨b, 1, 3, 0x90, 0xBF, 0⟩
  else if b ≤ 0xF3 then some ⟨b, 1, 3, 0x80, 0xBF, b % 0x08⟩
  else if b = 0xF4 then some ⟨b, 1, 3, 0x80, 0x8F, 4⟩
  else none

/-- The characters of bytes from a position on; `pending` is the character begun before them. -/
def decodeUtf8From (position : Nat) (pending : Option PartialChar) :
    List UInt8 → Except Utf8Fault Text
  | [] =>
    match pending with
    | none => .ok []
    | some p => .error ⟨.ending, position - p.taken, p.taken, p.first⟩
  | byte :: rest =>
    let b := byte.toNat
    match pending with
    | none =>
      if b < 0x80 then (decodeUtf8From (position + 1) none rest).map (Char.ofNat b :: ·)
      else
        match PartialChar.ofFirst? b with
        | some p => decodeUtf8From (position + 1) (some p) rest
        | none => .error ⟨.start, position, 1, b⟩
    | some p =>
      if p.low ≤ b ∧ b ≤ p.high then
        let bits := p.bits * 0x40 + b % 0x40
        if p.owed = 1 then (decodeUtf8From (position + 1) none rest).map (Char.ofNat bits :: ·)
        else
          decodeUtf8From (position + 1)
            (some ⟨p.first, p.taken + 1, p.owed - 1, 0x80, 0xBF, bits⟩) rest
      else .error ⟨.continuation, position - p.taken, p.taken, p.first⟩

def decodeUtf8 (bytes : List UInt8) : Except Utf8Fault Text := decodeUtf8From 0 none bytes

/-- A text whose lines end with a line feed alone, whatever ended them before. -/
def unifyLineEnds : Text → Text
  | [] => []
  | '\r' :: '\n' :: t => '\n' :: unifyLineEnds t
  | '\r' :: t => '\n' :: unifyLineEnds t
  | c :: t => c :: unifyLineEnds t

end TextGrammar
