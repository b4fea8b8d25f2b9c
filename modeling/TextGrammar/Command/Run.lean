import TextGrammar.Command.Report
import TextGrammar.Load
import TextGrammar.Lint.Findings
import TextGrammar.Grammar
import TextGrammar.English.Install
import TextGrammar.Select.Build
import TextGrammar.Select.MersenneTwister

/-!
# Carrying out commands

Every command loads a grammar file and checks its shape first. Then the content is checked, the
symbols are listed, or a rule is expanded with the English modifiers.

## Main definitions

* `Surroundings` — what a command finds around it.
* `Command.report` — what a command comes to.
* `Command.run` — what it prints.
-/

namespace TextGrammar

/-- What a command finds around it. -/
structure Surroundings where
  files : Files
  environment : Environment
  /-- The seed of the random choices when none is asked for. -/
  seed : Int

/-- The rule table of a grammar file, with the file that it tells. -/
def loadTable (files : Files) (path : Text) : Except Failure (RuleTable × Option Text) :=
  match loadGrammar files path with
  | .error f => .error (.notLoaded f)
  | .ok raw =>
    match TextGrammar.validate raw with
    | .error findings => .error (.found findings)
    | .ok table => .ok (table, fileOf raw)

/-- What is doubtful in a grammar that is expanded with the English modifiers. -/
def lintReport (table : RuleTable) (origin : Text) (file : Option Text) : Except Failure Result :=
  let known := Registry.addEnglish ∅ englishFamilies
  match TextGrammar.lint table (some known.contains) (some origin) file with
  | [] => .ok .clean
  | findings => .error (.found findings)

/-- The symbols of a table with their candidates, in the order of their names. -/
def symbolListing (table : RuleTable) : List (Text × List Text) :=
  table.entries.mergeSort fun a b => Text.atMost (Text.lower a.1) (Text.lower b.1)

def referenceRule (symbol : Text) : Text := '#' :: symbol ++ ['#']

/-- The symbol to start from is not in the table. -/
def unknownOrigin (path origin : Text) : Finding where
  stage := .checking
  code := "E_FLATTEN_UNKNOWN_ORIGIN".toList
  message := "--origin references unknown symbol: ".toList ++ origin
  file := some path
  path := some "origin".toList

namespace ExpansionRequest

/-- The rule to expand; the symbol to start from has to be in the table if it is needed. -/
def ruleIn (r : ExpansionRequest) (table : RuleTable) (path : Text) : Except Finding Text :=
  match r.rule with
  | some rule => .ok rule
  | none =>
    if table.contains r.origin then .ok (referenceRule r.origin)
    else .error (unknownOrigin path r.origin)

/-- The selector that is asked for; an empty name asks for none. -/
def selectorIn (r : ExpansionRequest) (around : Surroundings) :
    Except Finding (Selector MersenneTwister) :=
  let name := r.selector.getD []
  let name := if name = [] then around.environment.selectorName else name
  (Selector.named name (MersenneTwister.ofSeed (r.seed.getD around.seed))).mapError
    UnknownSelector.finding

/-- The grammar that is asked for. -/
def grammarIn (r : ExpansionRequest) (table : RuleTable) (environment : Environment) :
    Except Finding Grammar := do
  let maxDepth ←
    match r.maxDepth with
    | some d => pure d
    | none => environment.maxDepth.mapError BadDepth.finding
  pure {
    rules := table, modifiers := Registry.addEnglish ∅ englishFamilies,
    keepsBindings := r.keepsBindings, maxDepth, strict := r.strict }

/-- Everything that an expansion needs. -/
def prepare (r : ExpansionRequest) (around : Surroundings) (table : RuleTable) (path : Text) :
    Except Finding (Text × Selector MersenneTwister × Grammar) := do
  let rule ← r.ruleIn table path
  let selector ← r.selectorIn around
  let grammar ← r.grammarIn table around.environment
  pure (rule, selector, grammar)

/-- What an expansion comes to. -/
def report (r : ExpansionRequest) (around : Surroundings) (table : RuleTable) (path : Text) :
    Report :=
  match r.prepare around table path with
  | .error f => ⟨.flatten, [], .error (.found [f])⟩
  | .ok (rule, selector, grammar) =>
    let outcomes := grammar.flattenMany Selector.pick selector rule r.count
    ⟨.flatten, outcomes.events,
      match outcomes.failure with
      | some e => .error (.found [e.finding])
      | none => .ok (.expanded rule outcomes.texts)⟩

end ExpansionRequest

namespace Command

/-- What a command comes to. -/
def report (c : Command) (around : Surroundings) : Report :=
  match loadTable around.files c.path with
  | .error failure => ⟨c.action.verb, [], .error failure⟩
  | .ok (table, file) =>
    match c.action with
    | .validate => ⟨.validate, [], .ok (.wellShaped table)⟩
    | .lint origin => ⟨.lint, [], lintReport table origin file⟩
    | .symbols => ⟨.symbols, [], .ok (.listing (symbolListing table))⟩
    | .flatten request => request.report around table c.path

/-- What a command prints. A format that does not exist is refused before anything else. -/
def run (c : Command) (around : Surroundings) : Printout :=
  match OutputFormat.ofName? c.format with
  | none => ⟨2, [], findingLines [unknownFormat c.action.verb c.format]⟩
  | some format => (c.report around).shown c.verbose format

/-- What breaks off a command when it loads its file, once the format of the output is known. -/
def loadBreak? (c : Command) (around : Surroundings) : Option LoadFault := do
  let _ ← OutputFormat.ofName? c.format
  match loadMapping around.files (Path.ofText c.path) with
  | .error fault => if fault.isBreak then some fault else none
  | .ok _ => none

end Command

end TextGrammar
