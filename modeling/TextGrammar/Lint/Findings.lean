import TextGrammar.Lint.Graph
import TextGrammar.Finding
import TextGrammar.Text.Digit

/-!
# What is doubtful in a grammar

A grammar of the right shape may still hold slips: symbols without candidates, references to names
that nothing defines, modifiers that nobody knows, symbols that the start never leads to, and
symbols that can never finish. All of them are found without expanding anything.

## Main definitions

* `LintFault` — what can be doubtful.
* `lint` — what is doubtful in a table, sorted.
-/

namespace TextGrammar

/-- What can be doubtful. -/
inductive LintFault where
  | emptyCandidates (symbol : Text)
  | unknownSymbol (reference : Text)
  | unknownModifier (modifier reference : Text)
  | unreachableSymbol (origin : Text)
  | nonTerminating
deriving DecidableEq

namespace LintFault

def code : LintFault → Text
  | emptyCandidates _ => "L_EMPTY_CANDIDATES".toList
  | unknownSymbol _ => "L_UNKNOWN_SYMBOL".toList
  | unknownModifier .. => "L_UNKNOWN_MODIFIER".toList
  | unreachableSymbol _ => "L_UNREACHABLE_SYMBOL".toList
  | nonTerminating => "L_NON_TERMINATING".toList

def message : LintFault → Text
  | emptyCandidates symbol =>
    "symbol ".toList ++ symbol
      ++ " has no candidates and always expands to an empty string".toList
  | unknownSymbol reference =>
    "reference ".toList ++ reference
      ++ " names no rule or variable (expands to literal text)".toList
  | unknownModifier modifier reference =>
    "unknown modifier '".toList ++ modifier ++ "' in ".toList ++ reference
  | unreachableSymbol origin => "symbol is not reachable from ".toList ++ origin
  | nonTerminating =>
    "every candidate recurses back into itself; expansion can never finish".toList

def finding (file : Option Text) (path : Text) (fault : LintFault) : Finding :=
  ⟨.checking, fault.code, fault.message, file, some path⟩

end LintFault

/-- The names, in lower case, that some candidate of a table binds to a rule. -/
def boundNames (table : RuleTable) : List Text :=
  (table.values.flatMap fun candidates => candidates.flatMap bindingsIn).filterMap fun b =>
    b.rule.map fun _ => Text.lower b.name

/-- Whether a name is neither empty nor a symbol nor one of the names `bound`. -/
def isUnknownSymbol (table : RuleTable) (bound : List Text) (symbol : Text) : Bool :=
  !table.contains symbol && !symbol.isEmpty && !bound.contains (Text.lower symbol)

/-- What is doubtful in a reference; `knows` says which modifiers are known, if that matters. -/
def referenceFaults (table : RuleTable) (bound : List Text) (knows : Option (Text → Bool))
    (r : Reference) : List LintFault :=
  (if isUnknownSymbol table bound r.symbol then [.unknownSymbol r.raw] else []) ++
    match knows with
    | none => []
    | some known =>
      (r.modifiers.filter (!known ·)).map fun m => .unknownModifier m r.raw

def candidatePath (symbol : Text) (i : Nat) : Text := symbol ++ '[' :: decimalText i ++ [']']

/-- What is doubtful in the candidates of a symbol by themselves. -/
def symbolFindings (table : RuleTable) (bound : List Text) (knows : Option (Text → Bool))
    (file : Option Text) (symbol : Text) (candidates : List Text) : List Finding :=
  (if candidates.isEmpty then [LintFault.finding file symbol (.emptyCandidates symbol)] else []) ++
    candidates.zipIdx.flatMap fun (candidate, i) =>
      (referencesIn candidate).flatMap fun r =>
        (referenceFaults table bound knows r).map (LintFault.finding file (candidatePath symbol i))

/-- The symbols that `origin` does not lead to; none when it is not a symbol itself. -/
def unreachableFindings (table : RuleTable) (file : Option Text) (origin : Text) : List Finding :=
  if table.contains origin then
    let graph := dependencies table
    let reached := reachableFrom graph (Text.lower origin)
    (graph.filter fun d => !reached.contains d.name).map fun d =>
      LintFault.finding file d.symbol (.unreachableSymbol origin)
  else []

/-- The symbols that can never finish. -/
def nonTerminatingFindings (table : RuleTable) (file : Option Text) : List Finding :=
  let graph := dependencies table
  let finished := finishing graph
  (graph.filter fun d => !finished.contains d.name).map fun d =>
    LintFault.finding file d.symbol .nonTerminating

/-- What is doubtful in a table, sorted. -/
def lint (table : RuleTable) (knows : Option (Text → Bool)) (origin file : Option Text) :
    List Finding :=
  let bound := boundNames table
  Finding.sort
    (table.entries.flatMap (fun e => symbolFindings table bound knows file e.1 e.2)
      ++ (origin.elim [] (unreachableFindings table file))
      ++ nonTerminatingFindings table file)

end TextGrammar
