import TextGrammar.Value.Basic
import TextGrammar.Text.Quoted

/-!
# Values as text

A value is shown with its texts quoted. A text by itself may also be shown plainly.
-/

namespace TextGrammar

namespace Value

/-- Texts between `open` and `close` with commas between them. -/
def listed (opening closing : Text) (items : List Text) : Text :=
  opening ++ Text.joined ", ".toList items ++ closing

/-- The candidates of a symbol as they are shown: one alone is followed by a comma. -/
def shownCandidates : List Text → Text
  | [t] => '(' :: t.quoted ++ [',', ')']
  | texts => listed ['('] [')'] (texts.map Text.quoted)

mutual

/-- A value with its texts quoted. -/
def shown (v : Value) : Text :=
  match v with
  | null => "None".toList
  | truth b => (if b then "True" else "False").toList
  | integer i => integerText i
  | float x => x.text
  | date d => d.shown
  | text t => t.quoted
  | list items => listed ['['] [']'] (shownItems items)
  | mapping entries => listed ['\x7b'] ['\x7d'] (shownEntries entries)
  | candidates texts => shownCandidates texts
  | modifier m => m.description

def shownItems (items : List Value) : List Text :=
  match items with
  | [] => []
  | v :: items => shown v :: shownItems items

def shownEntries (entries : List (Value × Value)) : List Text :=
  match entries with
  | [] => []
  | (k, v) :: entries => (shown k ++ ": ".toList ++ shown v) :: shownEntries entries

end

/-- A value as it is shown by itself: a text is not quoted, and a date is written out. -/
def plain : Value → Text
  | text t => t
  | date d => d.plain
  | v => v.shown

end Value

end TextGrammar
