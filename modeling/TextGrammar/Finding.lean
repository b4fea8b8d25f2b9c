import TextGrammar.Text.Order
import TextGrammar.Text.Quoted

/-!
# Findings

A finding says what is wrong with a grammar, a file or a setting, and where. Every part of the
library reports its own causes; a finding is the form in which they are listed, sorted and shown.

## Main definitions

* `Finding` — what is wrong, found where and by which part of the work.
* `Finding.line` — a finding as one line of text.
* `Finding.sort` — findings by file, then path, then code.
-/

namespace TextGrammar

/-- The part of the work that a finding comes from. -/
inductive Stage where
  | general
  | loading
  | checking
  | configuring
  | expanding
deriving DecidableEq

/-- What is wrong, and where. -/
structure Finding where
  stage : Stage
  code : Text
  message : Text
  file : Option Text := none
  /-- The place inside the file, the setting, or the rule. -/
  path : Option Text := none
deriving DecidableEq

def Stage.label : Stage → Text
  | general => "GrammarError".toList
  | loading => "GrammarLoadError".toList
  | checking => "GrammarValidationError".toList
  | configuring => "GrammarConfigError".toList
  | expanding => "ExpansionDepthError".toList

namespace Finding

/-- The file and the path, as far as they are known and not empty. -/
def place (f : Finding) : Text :=
  match (f.file.toList ++ f.path.toList).filter (!·.isEmpty) with
  | [] => "<grammar>".toList
  | parts => Text.joined [':'] parts

def line (f : Finding) : Text :=
  f.place ++ ": ".toList ++ f.code ++ ": ".toList ++ f.message

/-- A field's text, quoted when it is there. -/
def quotedField : Option Text → Text
  | none => "None".toList
  | some t => t.quoted

def detailed (f : Finding) : Text :=
  f.stage.label ++ "(code=".toList ++ f.code.quoted ++ ", message=".toList ++ f.message.quoted
    ++ ", file=".toList ++ quotedField f.file ++ ", path=".toList ++ quotedField f.path ++ [')']

/-- How two findings compare: by file, then path, then code; a missing one is like an empty one. -/
def compare (a b : Finding) : Ordering :=
  (Text.compare (a.file.getD []) (b.file.getD [])).then
    ((Text.compare (a.path.getD []) (b.path.getD [])).then (Text.compare a.code b.code))

/-- Findings by file, then path, then code; those that agree in all three keep their order. -/
def sort (findings : List Finding) : List Finding :=
  findings.mergeSort fun a b => (compare a b).isLE

end Finding

end TextGrammar
