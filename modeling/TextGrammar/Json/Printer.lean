import TextGrammar.Text.Quoted

/-!
# Writing JSON

A document is written over several lines, each level indented by two spaces; collections without
parts stay on one line. Only characters of ASCII are written as they are; other characters are
given by their code points, those beyond the first plane as two halves.

## Main definitions

* `Json.Tree` — what is written.
* `Json.Tree.pretty` — a tree as it is written.
-/

namespace TextGrammar

namespace Json

inductive Tree where
  | null
  | truth (b : Bool)
  | count (n : Nat)
  | text (t : Text)
  | list (items : List Tree)
  | object (fields : List (Text × Tree))

def Tree.ofOption : Option Text → Tree
  | none => null
  | some t => text t

/-- A code unit of 16 bits, escaped. -/
def unitEscape (n : Nat) : Text := '\\' :: 'u' :: hexText 4 n

/-- The two halves that stand for a code point beyond the first plane. -/
def halves (n : Nat) : Nat × Nat :=
  (0xD800 + (n - 0x10000) / 0x400, 0xDC00 + (n - 0x10000) % 0x400)

/-- A character as it is written in a text. -/
def escapedChar (c : Char) : Text :=
  if c = '"' then ['\\', '"']
  else if c = '\\' then ['\\', '\\']
  else if c = '\n' then ['\\', 'n']
  else if c = '\r' then ['\\', 'r']
  else if c = '\t' then ['\\', 't']
  else if c = '\x08' then ['\\', 'b']
  else if c = '\x0c' then ['\\', 'f']
  else if 0x20 ≤ c.toNat ∧ c.toNat ≤ 0x7E then [c]
  else if c.toNat < 0x10000 then unitEscape c.toNat
  else unitEscape (halves c.toNat).1 ++ unitEscape (halves c.toNat).2

def quotedText (t : Text) : Text := '"' :: t.flatMap escapedChar ++ ['"']

/-- The start of a line at a level. -/
def newLine (level : Nat) : Text := '\n' :: List.replicate (2 * level) ' '

/-- The parts of a collection between its brackets, one a line. -/
def bracketed (opening closing : Char) (level : Nat) (parts : List Text) : Text :=
  if parts.isEmpty then [opening, closing]
  else
    opening :: newLine (level + 1) ++ Text.joined (',' :: newLine (level + 1)) parts
      ++ newLine level ++ [closing]

namespace Tree

mutual

def shownAt (level : Nat) : Tree → Text
  | null => "null".toList
  | truth b => if b then "true".toList else "false".toList
  | count n => decimalText n
  | text t => quotedText t
  | list items => bracketed '[' ']' level (itemsAt (level + 1) items)
  | object fields => bracketed '\x7b' '\x7d' level (fieldsAt (level + 1) fields)

def itemsAt (level : Nat) : List Tree → List Text
  | [] => []
  | t :: items => shownAt level t :: itemsAt level items

def fieldsAt (level : Nat) : List (Text × Tree) → List Text
  | [] => []
  | (key, t) :: fields =>
    (quotedText key ++ [':', ' '] ++ shownAt level t) :: fieldsAt level fields

end

/-- A tree as it is written. -/
def pretty (t : Tree) : Text := shownAt 0 t

end Tree

end Json

end TextGrammar
