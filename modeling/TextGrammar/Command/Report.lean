import TextGrammar.Json.Printer
import TextGrammar.Command.Arguments
import TextGrammar.Text.ControlSequence
import TextGrammar.Validation
import TextGrammar.Expand.Run

/-!
# Reports

What a command comes to is a report: what it found wrong, or what it has to say. A report is shown
as lines of text or as one JSON document. Both show the same findings and the same results, and they
end with the same exit code.

## Main definitions

* `Report` — what a command comes to.
* `Report.shown` — a report in a format.
* `unknownFormat` — the finding for a format that does not exist.
-/

namespace TextGrammar

/-- What a program leaves behind. -/
structure Printout where
  exit : Nat
  output : Text := []
  errors : Text := []
deriving DecidableEq

inductive OutputFormat where
  | text
  | json
deriving DecidableEq

namespace OutputFormat

def name : OutputFormat → Text
  | text => "text".toList
  | json => "json".toList

def ofName? (t : Text) : Option OutputFormat := [text, json].find? (·.name = t)

end OutputFormat

/-- What a command has to say when nothing is wrong. -/
inductive Result where
  | wellShaped (table : RuleTable)
  | clean
  | listing (entries : List (Text × List Text))
  | expanded (rule : Text) (texts : List Text)

inductive Failure where
  | notLoaded (finding : Finding)
  | found (findings : List Finding)

namespace Failure

def findings : Failure → List Finding
  | notLoaded f => [f]
  | found fs => fs

def exitCode : Failure → Nat
  | notLoaded _ => 1
  | found _ => 2

end Failure

/-- What a command comes to. -/
structure Report where
  verb : Verb
  events : List Event := []
  result : Except Failure Result

/-! ## Lines of text -/

/-- Lines, each with its end. -/
def lines (ls : List Text) : Text := ls.flatMap (· ++ ['\n'])

/-- Lines as they are printed: what a terminal would take as an order is left out. -/
def printedLines (ls : List Text) : Text := (lines ls).withoutControlSequences

/-- Findings as printed lines. -/
def findingLines (findings : List Finding) : Text :=
  printedLines ((Finding.sort findings).map Finding.line)

/-- A symbol with its candidates, as one line. -/
def listingLine (entry : Text × List Text) : Text :=
  "- ".toList ++ entry.1 ++ ": ".toList ++ Text.joined " | ".toList entry.2

/-- What a command has to say, as lines. -/
def Result.lines : Result → List Text
  | wellShaped table => [table.summary]
  | clean => ["OK: lint passed".toList]
  | listing entries => "Symbols:".toList :: entries.map listingLine
  | expanded _ texts => texts

/-- The name of the part of the work that writes the log. -/
def logSource : Text := "tracery_grammar.core.expand.grammar".toList

def Level.name : Level → Text
  | debug => "DEBUG".toList
  | warning => "WARNING".toList

/-- The line of the log for an event: with details every one is shown, with its level and where it
comes from; without them warnings are shown alone. -/
def logLine? (verbose : Bool) (e : Event) : Option Text :=
  match e.logLine? with
  | none => none
  | some (level, message) =>
    if verbose then some (level.name ++ ' ' :: logSource ++ ": ".toList ++ message)
    else if level = .warning then some message
    else none

def logText (verbose : Bool) (events : List Event) : Text :=
  lines (events.filterMap (logLine? verbose))

/-! ## JSON documents -/

/-- The name of the program. -/
def toolName : Text := "tracery".toList

/-- The kind of a finding: whether it comes from loading, from checking the content, or else. -/
def Finding.source (f : Finding) : Text :=
  if f.stage = .loading then "load".toList
  else if "L_".toList.isPrefixOf f.code then "lint".toList
  else "validate".toList

def Finding.tree (f : Finding) : Json.Tree :=
  .object [
    ("code".toList, .text f.code),
    ("file".toList, .ofOption f.file),
    ("message".toList, .text f.message),
    ("path".toList, .ofOption f.path),
    ("severity".toList, .text "error".toList),
    ("source".toList, .text f.source)]

/-- A list of findings as a tree, with a summary. -/
def findingsTree (verb : Verb) (findings : List Finding) (summary : Json.Tree) : Json.Tree :=
  .object [
    ("command".toList, .text verb.name),
    ("error_count".toList, .count findings.length),
    ("errors".toList, .list (findings.map Finding.tree)),
    ("ok".toList, .truth findings.isEmpty),
    ("summary".toList, summary),
    ("tool".toList, .text toolName)]

/-- How many symbols and candidates a table has, as a tree. -/
def summaryTree (table : RuleTable) : Json.Tree :=
  .object [
    ("candidate_count".toList, .count table.candidateCount),
    ("symbol_count".toList, .count table.size)]

def Result.tree (verb : Verb) : Result → Json.Tree
  | wellShaped table => findingsTree verb [] (summaryTree table)
  | clean => findingsTree verb [] .null
  | listing entries =>
    .object (entries.map fun e => (e.1, .list (e.2.map .text)))
  | expanded rule texts =>
    .object [
      ("command".toList, .text verb.name),
      ("ok".toList, .truth true),
      ("results".toList, .list (texts.map .text)),
      ("rule".toList, .text rule),
      ("tool".toList, .text toolName)]

def Report.tree (r : Report) : Json.Tree :=
  match r.result with
  | .ok result => result.tree r.verb
  | .error failure => findingsTree r.verb failure.findings .null

/-! ## Reports -/

def Report.exitCode (r : Report) : Nat :=
  match r.result with
  | .ok _ => 0
  | .error failure => failure.exitCode

/-- A report in a format, with the log before it. -/
def Report.shown (r : Report) (verbose : Bool) (format : OutputFormat) : Printout :=
  let log := logText verbose r.events
  match format, r.result with
  | .json, _ => ⟨r.exitCode, lines [r.tree.pretty], log⟩
  | .text, .ok result => ⟨r.exitCode, printedLines result.lines, log⟩
  | .text, .error failure => ⟨r.exitCode, [], log ++ findingLines failure.findings⟩

def unknownFormatCode : Verb → Text
  | .validate => "E_VALIDATE_UNKNOWN_FORMAT".toList
  | .lint => "E_LINT_UNKNOWN_FORMAT".toList
  | .symbols => "E_SYMBOLS_UNKNOWN_FORMAT".toList
  | .flatten => "E_FLATTEN_UNKNOWN_FORMAT".toList

/-- The finding for a format of the output that does not exist. -/
def unknownFormat (verb : Verb) (format : Text) : Finding where
  stage := .checking
  code := unknownFormatCode verb
  message := "unknown format: ".toList ++ format ++ " (choose one of: ".toList
    ++ Text.joined ", ".toList [OutputFormat.text.name, OutputFormat.json.name] ++ [')']
  path := some "format".toList

end TextGrammar
