import TextGrammar.Text.Case

/-!
# Paths

A path is a list of names. Writing one down drops empty names and names that stand for the place
itself; names that lead up are kept. The ending of a file's name tells its format.

## Main definitions

* `Path`, `Path.ofText` — the names of a path.
* `Path.text` — a path as it is written.
* `Path.ending` — the ending of the last name, with its dot.
-/

namespace TextGrammar

/-- The names of a path, from the outside in; a path that begins with a slash is absolute. -/
structure Path where
  absolute : Bool
  names : List Text
deriving DecidableEq

def upName : Text := ['.', '.']

namespace Path

def ofText (t : Text) : Path :=
  let (first, others) := Text.parts '/' t
  ⟨t.head? = some '/', (first :: others).filter fun n => n ≠ [] ∧ n ≠ ['.']⟩

/-- A path as it is written; the empty path is a dot. -/
def text (p : Path) : Text :=
  if p.absolute then '/' :: Text.joined ['/'] p.names
  else if p.names = [] then ['.']
  else Text.joined ['/'] p.names

/-- The last dot of a name and what follows it; empty when that dot begins or ends the name. -/
def endingOf (name : Text) : Text :=
  let after := name.reverse.takeWhile (· ≠ '.')
  if after = [] ∨ after.length + 1 ≥ name.length then [] else '.' :: after.reverse

/-- The ending of the last name, with its dot. -/
def ending (p : Path) : Text := endingOf (p.names.getLast?.getD [])

end Path

end TextGrammar
