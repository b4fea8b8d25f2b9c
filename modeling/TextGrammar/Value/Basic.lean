import TextGrammar.Modifier
import TextGrammar.Number.Notation
import TextGrammar.Value.Date

/-!
# Values

What a grammar file holds, and what a map may be asked to store, is a value: nothing, a truth value,
a number, a date, a text, a list, a mapping or a modifier. Rule tables hold candidate lists, which
are values of their own kind.

## Main definitions

* `Value` — the values.
* `Value.same` — equality: a number equals every other number of its value, a truth value counts as
  zero or one.
* `Value.mappingOf` — a mapping from pairs: a repeated key keeps its place and takes the last value.
-/

namespace TextGrammar

inductive Value where
  | null
  | truth (b : Bool)
  | integer (i : Int)
  | float (x : Binary64)
  | date (d : Date)
  | text (t : Text)
  | list (items : List Value)
  | mapping (entries : List (Value × Value))
  /-- The candidates that a rule table holds for a symbol. -/
  | candidates (texts : List Text)
  | modifier (m : Modifier)

instance : Inhabited Value := ⟨.null⟩

namespace Value

def kind : Value → Text
  | null => "NoneType".toList
  | truth _ => "bool".toList
  | integer _ => "int".toList
  | float _ => "float".toList
  | date d => (if d.clock.isSome then "datetime" else "date").toList
  | text _ => "str".toList
  | list _ => "list".toList
  | mapping _ => "dict".toList
  | candidates _ => "tuple".toList
  | modifier _ => "function".toList

def text? : Value → Option Text
  | text t => some t
  | _ => none

def texts? (values : List Value) : Option (List Text) := values.mapM text?

/-- The whole number that a value counts as, if it counts as one. -/
def integer? : Value → Option Int
  | truth b => some (if b then 1 else 0)
  | integer i => some i
  | _ => none

/-- Whether two values without parts are equal. -/
def sameLeaf : Value → Value → Bool
  | null, null => true
  | text s, text t => s = t
  | date d, date e => d.same e
  | candidates s, candidates t => s = t
  | modifier m, modifier n => m.description = n.description
  | float x, float y => x.same y
  | float x, v => (integer? v).any x.sameInt
  | v, float x => (integer? v).any x.sameInt
  | v, w =>
    match integer? v, integer? w with
    | some i, some j => i = j
    | _, _ => false

mutual

def same (v w : Value) : Bool :=
  match v with
  | list items =>
    match w with
    | list others => sameItems items others
    | _ => false
  | mapping entries =>
    match w with
    | mapping others => entries.length = others.length && sameEntries entries others
    | _ => false
  | v => sameLeaf v w

def sameItems (items others : List Value) : Bool :=
  match items, others with
  | [], [] => true
  | v :: items, w :: others => same v w && sameItems items others
  | _, _ => false

/-- Whether every entry has an equal one among `others`. -/
def sameEntries (entries others : List (Value × Value)) : Bool :=
  match entries with
  | [] => true
  | (k, v) :: entries =>
    (others.any fun e => same k e.1 && same v e.2) && sameEntries entries others

end

/-- Writes an entry of a mapping: a key that is the same keeps its place and its form and takes the
new value, a new key comes last. -/
def setEntry (sameKey : Value → Value → Bool) (key value : Value) :
    List (Value × Value) → List (Value × Value)
  | [] => [(key, value)]
  | e :: entries =>
    if sameKey e.1 key then (e.1, value) :: entries else e :: setEntry sameKey key value entries

/-- The entries of a mapping, written one after the other; `sameKey` tells which keys are one. -/
def mappingOf (sameKey : Value → Value → Bool) (pairs : List (Value × Value)) :
    List (Value × Value) :=
  pairs.foldl (fun entries e => setEntry sameKey e.1 e.2 entries) []

end Value

end TextGrammar
