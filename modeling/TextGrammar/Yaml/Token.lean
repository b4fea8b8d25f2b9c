import TextGrammar.Text.Basic

/-!
# The words of YAML

A YAML text is cut into tokens: the scalars, the marks of the flow style, and the places where
collections of the block style begin and end, which only the indentation shows.

## Main definitions

* `Yaml.Token` — the tokens.
* `Yaml.Fault` — why a text is not read.
* `Yaml.Cursor` — a place in a text, with its line and column.
-/

namespace TextGrammar

namespace Yaml

/-- A part of a text that means something by itself. -/
inductive Token where
  | version (major : Nat)
  /-- A directive that has no meaning for a single document. -/
  | otherDirective
  | documentStart
  | documentEnd
  | streamEnd
  | blockSequenceStart
  | blockMappingStart
  | blockEnd
  | flowSequenceStart
  | flowSequenceEnd
  | flowMappingStart
  | flowMappingEnd
  | flowEntry
  | blockEntry
  | key
  | value
  | anchor (name : Text)
  | alias (name : Text)
  /-- The tag that leaves the meaning open. -/
  | openTag
  | scalar (text : Text) (plain : Bool)
deriving DecidableEq

inductive Fault where
  | unprintable
  | unexpectedCharacter
  | missingColon
  | misplaced
  | badDirective
  | badAnchor
  | unsupportedTag
  | badHeader
  | openQuote
  | badEscape
  | unexpectedToken
  | severalDocuments
  | badNumber
  | badDate
  | collectionAsKey
  | badMerge
  | keyAsValue
  | halfCharacter
deriving DecidableEq

def Fault.message : Fault → Text
  | unprintable => "the text holds a character that is not allowed".toList
  | unexpectedCharacter => "a character cannot start any token".toList
  | missingColon => "a key is not followed by a colon".toList
  | misplaced => "a key, value or item is not allowed here".toList
  | badDirective => "a directive is not well formed".toList
  | badAnchor => "an anchor or alias is not well formed or not known".toList
  | unsupportedTag => "tags are not supported".toList
  | badHeader => "the header of a block scalar is not well formed".toList
  | openQuote => "a quoted scalar is not closed".toList
  | badEscape => "an escape does not exist".toList
  | unexpectedToken => "another token is expected".toList
  | severalDocuments => "more than one document".toList
  | badNumber => "a number has no value".toList
  | badDate => "there is no such date".toList
  | collectionAsKey => "a collection cannot be a key".toList
  | badMerge => "only mappings can be merged".toList
  | keyAsValue => "a mark that only a key can be stands for a value".toList
  | halfCharacter => "surrogates not allowed".toList

/-! ## Places in a text -/

def isBreak (c : Char) : Bool :=
  c = '\n' || c = '\r' || c = '\u0085' || c = '\u2028' || c = '\u2029'

/-- Whether a line ends before a character, or at the end of the text. -/
def endsLine (c : Option Char) : Bool := c.all isBreak

/-- Whether a word ends before a character, or at the end of the text. -/
def endsWord (c : Option Char) : Bool := c.all fun c => c = ' ' || c = '\t' || isBreak c

/-- A place in a text: what is left, and how many characters, line ends and characters of the line
come before. A byte order mark does not count for the column. -/
structure Cursor where
  rest : Text
  index : Nat := 0
  line : Nat := 0
  column : Nat := 0

namespace Cursor

def peek (c : Cursor) (n : Nat) : Option Char := c.rest[n]?

def sees (c : Cursor) (ch : Char) : Bool := c.rest.head? = some ch

def advance (c : Cursor) : Cursor :=
  match c.rest with
  | [] => c
  | ch :: rest =>
    if isBreak ch && !(ch = '\r' && rest.head? = some '\n') then ⟨rest, c.index + 1, c.line + 1, 0⟩
    else ⟨rest, c.index + 1, c.line, if ch = '\uFEFF' then c.column else c.column + 1⟩

def advanceBy : Nat → Cursor → Cursor
  | 0, c => c
  | n + 1, c => advanceBy n c.advance

/-- The characters ahead that satisfy `p`, and the place after them. -/
def takeWhile (c : Cursor) (p : Char → Bool) : Text × Cursor :=
  let taken := c.rest.takeWhile p
  (taken, advanceBy taken.length c)

def skipWhile (c : Cursor) (p : Char → Bool) : Cursor := (c.takeWhile p).2

def skipSpaces (c : Cursor) : Cursor := c.skipWhile (· = ' ')

/-- The place after the comment ahead, if there is one. -/
def skipComment (c : Cursor) : Cursor :=
  if c.sees '#' then c.skipWhile (!isBreak ·) else c

/-- The line end ahead and the place after it. The line and paragraph separators stay as they are,
every other line end is a line feed. -/
def lineBreak? (c : Cursor) : Option (Char × Cursor) :=
  match c.rest with
  | '\r' :: '\n' :: _ => some ('\n', c.advance.advance)
  | ch :: _ =>
    if isBreak ch then
      some (if ch = '\u2028' ∨ ch = '\u2029' then ch else '\n', c.advance)
    else none
  | [] => none

/-- Whether a mark of a document, three times `ch`, is ahead. -/
def seesMark (c : Cursor) (ch : Char) : Bool :=
  c.rest.take 3 = [ch, ch, ch] && endsWord (c.peek 3)

/-- Whether a mark of a document is ahead. -/
def seesAnyMark (c : Cursor) : Bool := c.seesMark '-' || c.seesMark '.'

end Cursor

end Yaml

end TextGrammar
