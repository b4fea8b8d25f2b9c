import TextGrammar.Store.Admission

/-!
# Requests to maps

A request names what is to be done to a map with keys and values of any kind. Carrying it out
answers a value or a refusal, and gives the map afterwards. A refused request leaves the map as it
was, but for an update, which keeps what the pairs before the refused one wrote.

## Main definitions

* `Request` — what can be asked of every map.
* `perform` — carries a request out.
* `addSymbol`, `removeSymbol`, `callModifier` — what only rule tables and registries are asked.
-/

namespace TextGrammar

variable {V : Type}

/-- What can be asked of every map. -/
inductive Request where
  | set (key value : Value)
  | get (key : Value)
  | getOr (key other : Value)
  | delete (key : Value)
  | contains (key : Value)
  | size
  | nonempty
  | names
  | values
  | pop (key : Value) (other : Option Value)
  | popFirst
  | clear
  /-- The value of a key; when it has none, write a value and answer it as it was given. -/
  | setDefault (key value : Value)
  | update (pairs : List (Value × Value))

/-- The name that a key is when it is looked up. -/
def nameOf (key : Value) : Except Refusal Text :=
  match key with
  | .text name => .ok name
  | v => .error (.keyWithoutCase v.kind)

def lookUp (m : NameMap V) (key : Value) : Except Refusal V := do
  let name ← nameOf key
  match m.get? name with
  | some v => .ok v
  | none => .error (.missing name.lower)

/-- Writes a value under a key: the value is looked at first, then the key. -/
def store (kind : Admission V) (m : NameMap V) (key value : Value) :
    Except Refusal (NameMap V) := do
  let v ← kind.accept key value
  match key with
  | .text name => .ok (m.insert name v)
  | k => .error (.keyNotText k.kind)

/-- Writes pairs one after the other up to the first that is refused. -/
def storeAll (kind : Admission V) :
    NameMap V → List (Value × Value) → Option Refusal × NameMap V
  | m, [] => (none, m)
  | m, (key, value) :: pairs =>
    match store kind m key value with
    | .ok m => storeAll kind m pairs
    | .error e => (some e, m)

/-- Whether a key has an entry; a key that is not a text has none. -/
def holds (m : NameMap V) (key : Value) : Bool :=
  match key with
  | .text name => m.contains name
  | _ => false

/-- Removes the entry of a key, whose value is given. -/
def remove (m : NameMap V) (key : Value) : NameMap V :=
  match key with
  | .text name => m.erase name
  | _ => m

/-- The answer to a request and the map afterwards. -/
def perform (kind : Admission V) (m : NameMap V) : Request → Except Refusal Value × NameMap V
  | .set key value =>
    match store kind m key value with
    | .ok m => (.ok .null, m)
    | .error e => (.error e, m)
  | .get key => ((lookUp m key).map kind.toValue, m)
  | .getOr key other =>
    match lookUp m key with
    | .error (.missing _) => (.ok other, m)
    | result => (result.map kind.toValue, m)
  | .delete key =>
    match lookUp m key with
    | .ok _ => (.ok .null, remove m key)
    | .error e => (.error e, m)
  | .contains key => (.ok (.truth (holds m key)), m)
  | .size => (.ok (.integer m.size), m)
  | .nonempty => (.ok (.truth (!m.entries.isEmpty)), m)
  | .names => (.ok (.list (m.names.map .text)), m)
  | .values => (.ok (.list (m.values.map kind.toValue)), m)
  | .pop key other =>
    match lookUp m key, other with
    | .ok v, _ => (.ok (kind.toValue v), remove m key)
    | .error (.missing _), some value => (.ok value, m)
    | .error e, _ => (.error e, m)
  | .popFirst =>
    match m.popFirst? with
    | some ((name, v), m) => (.ok (.list [.text name, kind.toValue v]), m)
    | none => (.error .nothingThere, m)
  | .clear => (.ok .null, ∅)
  | .setDefault key value =>
    match lookUp m key with
    | .ok v => (.ok (kind.toValue v), m)
    | .error (.missing _) =>
      match store kind m key value with
      | .ok m => (.ok value, m)
      | .error e => (.error e, m)
    | .error e => (.error e, m)
  | .update pairs =>
    match storeAll kind m pairs with
    | (none, m) => (.ok .null, m)
    | (some e, m) => (.error e, m)

def asMapping (kind : Admission V) (m : NameMap V) : Value :=
  .mapping (m.entries.map fun e => (.text e.1, kind.toValue e.2))

/-- A map as it is shown under a label. -/
def shownMap (label : Text) (kind : Admission V) (m : NameMap V) : Text :=
  label ++ '(' :: (asMapping kind m).shown ++ [')']

/-! ## Requests to rule tables and registries -/

/-- Adds a symbol that must not be there yet. -/
def addSymbol (table : RuleTable) (key value : Value) : Except Refusal Value × RuleTable :=
  if holds table key then (.error (.alreadyDefined key.plain), table)
  else perform .candidateLists table (.set key value)

def removeSymbol (table : RuleTable) (key : Value) : Bool × RuleTable :=
  if holds table key then (true, remove table key) else (false, table)

/-- The candidates of a symbol, none when it is not there. -/
def candidatesRequest (key : Value) : Request := .getOr key (.candidates [])

/-- What the modifier of a name makes of a text. A key that the modifier misses is missing. -/
def callModifier (registry : Registry) (key : Value) (t : Text) : Except Refusal Value := do
  let m ← lookUp registry key
  ((m.change t).map .text).mapError .missing

end TextGrammar
