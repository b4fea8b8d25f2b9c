import TextGrammar.Command.WholeNumber

/-!
# The words of a command line

A command line is a verb with the path of a grammar file and options. An option has a long name
after two dashes, and may have a letter after one; several letters can share a dash. An option that
takes a value takes what is written right after it, or the next word. Two dashes alone end the
options. Of an option that is repeated the last value counts.

## Main definitions

* `Command` — what is asked for.
* `UsageFault` — why words ask for nothing.
* `Command.ofWords` — the command that words ask for.
-/

namespace TextGrammar

/-- Why words ask for nothing. -/
inductive UsageFault where
  | noWords
  | noVerb
  | unknownVerb (name : Text)
  | unknownOption (name : Text)
  | missingValue (option : Text)
  | needlessValue (option : Text)
  | badValue (option value : Text)
  | missingPath
  | extraWord (word : Text)
deriving DecidableEq

def UsageFault.message : UsageFault → Text
  | noWords | noVerb => "a command is missing".toList
  | unknownVerb name => "no such command: ".toList ++ name
  | unknownOption name => "no such option: ".toList ++ name
  | missingValue option => "a value is missing after ".toList ++ option
  | needlessValue option => "no value is expected after ".toList ++ option
  | badValue option value => "invalid value for ".toList ++ option ++ ": ".toList ++ value
  | missingPath => "the path of a grammar file is missing".toList
  | extraWord word => "unexpected argument: ".toList ++ word

/-! ## Options -/

/-- What the options say, as it is written. -/
structure Settings where
  verbose : Bool := false
  format : Text := "text".toList
  origin : Text := "origin".toList
  rule : Option Text := none
  count : Option Text := none
  seed : Option Text := none
  selector : Option Text := none
  maxDepth : Option Text := none
  keepsBindings : Bool := false
  strict : Bool := false

inductive OptionEffect where
  | switch (set : Settings → Settings)
  | takesValue (set : Text → Settings → Settings)

structure CommandOption where
  name : Text
  letter : Option Char
  effect : OptionEffect

def verboseOption : CommandOption :=
  ⟨"--verbose".toList, some 'v', .switch fun s => { s with verbose := true }⟩

def formatOption : CommandOption :=
  ⟨"--format".toList, none, .takesValue fun v s => { s with format := v }⟩

def originOption : CommandOption :=
  ⟨"--origin".toList, none, .takesValue fun v s => { s with origin := v }⟩

def countName : Text := "--count".toList

def seedName : Text := "--seed".toList

def maxDepthName : Text := "--max-depth".toList

def expansionOptions : List CommandOption := [
  ⟨"--rule".toList, none, .takesValue fun v s => { s with rule := some v }⟩,
  originOption,
  ⟨countName, some 'n', .takesValue fun v s => { s with count := some v }⟩,
  ⟨seedName, none, .takesValue fun v s => { s with seed := some v }⟩,
  ⟨"--selector".toList, none, .takesValue fun v s => { s with selector := some v }⟩,
  ⟨"--persist-bindings".toList, none, .switch fun s => { s with keepsBindings := true }⟩,
  ⟨"--call-bindings".toList, none, .switch fun s => { s with keepsBindings := false }⟩,
  ⟨maxDepthName, none, .takesValue fun v s => { s with maxDepth := some v }⟩,
  ⟨"--strict".toList, none, .switch fun s => { s with strict := true }⟩,
  formatOption]

/-- What a word with an option comes to. -/
inductive OptionStep where
  | done (settings : Settings)
  /-- The settings once the next word is known, which is the value of an option. -/
  | waits (option : Text) (set : Text → Settings)

/-- Whether a word stands for options; a dash alone does not. -/
def isOptionWord (word : Text) : Bool := word.head? = some '-' && 1 < word.length

/-- The options whose letters follow one dash; what follows the letter of an option that takes a
value is the value. -/
def readLetters (options : List CommandOption) (settings : Settings) :
    Text → Except UsageFault OptionStep
  | [] => .ok (.done settings)
  | c :: letters =>
    match options.find? (·.letter = some c) with
    | none => .error (.unknownOption ['-', c])
    | some o =>
      match o.effect with
      | .switch set => readLetters options (set settings) letters
      | .takesValue set =>
        .ok (if letters = [] then .waits o.name (set · settings) else .done (set letters settings))

/-- The options of a word: one by its name, which an equals sign divides from a value, or several by
their letters. -/
def readOption (options : List CommandOption) (settings : Settings) (word : Text) :
    Except UsageFault OptionStep :=
  let (name, value) := Text.cutAt '=' word
  match options.find? (·.name = name) with
  | some o =>
    match o.effect, value with
    | .switch set, none => .ok (.done (set settings))
    | .switch _, some _ => .error (.needlessValue name)
    | .takesValue set, none => .ok (.waits name (set · settings))
    | .takesValue set, some v => .ok (.done (set v settings))
  | none =>
    if ['-', '-'].isPrefixOf word then .error (.unknownOption name)
    else readLetters options settings word.tail

/-- The settings that words give, and the words that are no options. Unless options can follow other
words (`mixed`), the first word that is no option ends them. -/
def readOptions (options : List CommandOption) (mixed : Bool) :
    Settings → List Text → Except UsageFault (Settings × List Text)
  | settings, [] => .ok (settings, [])
  | settings, word :: words =>
    if word = ['-', '-'] then .ok (settings, words)
    else if isOptionWord word then
      match readOption options settings word with
      | .error e => .error e
      | .ok (.done settings) => readOptions options mixed settings words
      | .ok (.waits name set) =>
        match words with
        | [] => .error (.missingValue name)
        | value :: words => readOptions options mixed (set value) words
    else if mixed then
      (readOptions options mixed settings words).map fun r => (r.1, word :: r.2)
    else .ok (settings, word :: words)

/-! ## Commands -/

/-- How a rule is to be expanded. -/
structure ExpansionRequest where
  /-- The rule; without one it is the reference to the origin. -/
  rule : Option Text
  origin : Text
  count : Nat
  seed : Option Int
  selector : Option Text
  keepsBindings : Bool
  maxDepth : Option Int
  strict : Bool
deriving DecidableEq

/-- What is to be done with a grammar. -/
inductive Action where
  | validate
  | lint (origin : Text)
  | symbols
  | flatten (request : ExpansionRequest)
deriving DecidableEq

/-- What is asked for. -/
structure Command where
  verbose : Bool
  path : Text
  /-- The format of the output, as it is asked for. -/
  format : Text
  action : Action
deriving DecidableEq

inductive Verb where
  | validate
  | lint
  | symbols
  | flatten
deriving DecidableEq

namespace Verb

def name : Verb → Text
  | validate => "validate".toList
  | lint => "lint".toList
  | symbols => "symbols".toList
  | flatten => "flatten".toList

def ofName? (t : Text) : Option Verb := [validate, lint, symbols, flatten].find? (·.name = t)

def options : Verb → List CommandOption
  | validate => [formatOption]
  | lint => [originOption, formatOption]
  | symbols => []
  | flatten => expansionOptions

/-- The whole number that is the value of an option, at least `least` if there is such a bound. -/
def number? (option : Text) (least : Option Int) :
    Option Text → Except UsageFault (Option Int)
  | none => .ok none
  | some v =>
    match readOptionNumber? v with
    | some i => if least.all (· ≤ i) then .ok (some i) else .error (.badValue option v)
    | none => .error (.badValue option v)

/-- What a verb asks for with some settings. -/
def action (settings : Settings) : Verb → Except UsageFault Action
  | validate => .ok .validate
  | lint => .ok (.lint settings.origin)
  | symbols => .ok .symbols
  | flatten => do
    let count ← number? countName (some 1) settings.count
    let seed ← number? seedName none settings.seed
    let maxDepth ← number? maxDepthName (some 1) settings.maxDepth
    pure (.flatten {
      rule := settings.rule, origin := settings.origin, count := (count.getD 1).toNat, seed,
      selector := settings.selector, keepsBindings := settings.keepsBindings, maxDepth,
      strict := settings.strict })

end Verb

def Action.verb : Action → Verb
  | validate => .validate
  | lint _ => .lint
  | symbols => .symbols
  | flatten _ => .flatten

/-- The command that words ask for. A word that takes the place of the verb and is none is read as
an option once more. -/
def Command.ofWords (words : List Text) : Except UsageFault Command := do
  if words = [] then throw .noWords
  let (settings, rest) ← readOptions [verboseOption] false {} words
  match rest with
  | [] => throw .noVerb
  | name :: rest =>
    match Verb.ofName? name with
    | none =>
      let _ ← readOptions [verboseOption] false {} (name :: rest)
      throw (.unknownVerb name)
    | some verb =>
      let (settings, paths) ← readOptions verb.options true settings rest
      let action ← verb.action settings
      match paths with
      | [] => throw .missingPath
      | [path] => pure ⟨settings.verbose, path, settings.format, action⟩
      | _ :: extra :: _ => throw (.extraWord extra)

end TextGrammar
