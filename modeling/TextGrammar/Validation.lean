import TextGrammar.Value.Shown
import TextGrammar.RuleTable
import TextGrammar.Text.WhiteSpace
import TextGrammar.Finding

/-!
# The shape of a grammar

What a file holds is a grammar when every key is a name that is not blank, no two keys spell one
name, and every value is a text or a list of texts. One entry is set apart: it tells which file the
grammar comes from. Every other entry is either taken into the table or gives one finding.

## Main definitions

* `ShapeFault` — what can be wrong with an entry.
* `checkEntries` — the faults of a mapping's entries and the entries without a fault.
* `validate` — the rule table of a mapping, or what is wrong with it.
-/

namespace TextGrammar

inductive ShapeFault where
  | invalidSymbol (key : Value)
  /-- An earlier key, `first`, spells the same name. -/
  | duplicateSymbol (symbol first : Text)
  | invalidType (symbol : Text)

namespace ShapeFault

def code : ShapeFault → Text
  | invalidSymbol _ => "E_INVALID_SYMBOL".toList
  | duplicateSymbol .. => "E_DUPLICATE_SYMBOL".toList
  | invalidType _ => "E_INVALID_TYPE".toList

def message : ShapeFault → Text
  | invalidSymbol key => "symbol names must be non-empty strings, got ".toList ++ key.shown
  | duplicateSymbol symbol first =>
    "symbol ".toList ++ symbol ++ " duplicates ".toList ++ first
      ++ " (names are case-insensitive)".toList
  | invalidType _ => "candidates must be a string or an array of strings".toList

/-- The key as it is shown by itself. -/
def path : ShapeFault → Text
  | invalidSymbol key => key.plain
  | duplicateSymbol symbol _ => symbol
  | invalidType symbol => symbol

def finding (file : Option Text) (fault : ShapeFault) : Finding :=
  ⟨.checking, fault.code, fault.message, file, some fault.path⟩

end ShapeFault

def fileKey : Text := "__file__".toList

/-- The name that a key is: a text that is not blank. -/
def symbolOf? (key : Value) : Option Text :=
  match key with
  | .text t => if Text.isBlank t then none else some t
  | _ => none

/-- The candidates that a value gives: itself when it is a text, its items when they are texts. -/
def candidatesOf? (value : Value) : Option (List Text) :=
  match value with
  | .text t => some [t]
  | .list items => Value.texts? items
  | _ => none

/-- What is checked of an entry when the names of `seen` have been used. -/
def checkEntry (seen : List Text) (key value : Value) : Except ShapeFault (Text × List Text) :=
  match symbolOf? key with
  | none => .error (.invalidSymbol key)
  | some symbol =>
    match seen.find? (Text.sameName · symbol) with
    | some first => .error (.duplicateSymbol symbol first)
    | none =>
      match candidatesOf? value with
      | some candidates => .ok (symbol, candidates)
      | none => .error (.invalidType symbol)

/-- The names that have been used after an entry: a name that is used for the first time is taken,
whatever its value is. -/
def usedNames (seen : List Text) (key : Value) : List Text :=
  match symbolOf? key with
  | none => seen
  | some symbol => if seen.any (Text.sameName · symbol) then seen else seen ++ [symbol]

/-- The faults of entries, and the entries without a fault, in order. -/
def checkEntries (seen : List Text) :
    List (Value × Value) → List ShapeFault × List (Text × List Text)
  | [] => ([], [])
  | (key, value) :: rest =>
    let (faults, entries) := checkEntries (usedNames seen key) rest
    match checkEntry seen key value with
    | .ok entry => (faults, entry :: entries)
    | .error fault => (fault :: faults, entries)

def isFileKey (key : Value) : Bool :=
  match key with
  | .text t => t = fileKey
  | _ => false

/-- The file that a mapping comes from. -/
def fileOf (raw : List (Value × Value)) : Option Text :=
  match raw.find? (isFileKey ·.1) with
  | some (_, .text t) => some t
  | _ => none

/-- The rule table of a mapping, or what is wrong with it, sorted. -/
def validate (raw : List (Value × Value)) : Except (List Finding) RuleTable :=
  let (faults, entries) := checkEntries [] (raw.filter (!isFileKey ·.1))
  if faults.isEmpty then .ok (.ofList entries)
  else .error (Finding.sort (faults.map (·.finding (fileOf raw))))

/-- How many symbols and candidates a rule table has, as one line of text. -/
def RuleTable.summary (table : RuleTable) : Text :=
  "OK: ".toList ++ decimalText table.size ++ " symbols (".toList
    ++ decimalText table.candidateCount ++ " candidates)".toList

end TextGrammar
