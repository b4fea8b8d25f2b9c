import TextGrammar.Yaml.Scalar

/-!
# Cutting a YAML text into tokens

A key needs no mark before it: that a scalar or a collection was a key shows only at the colon after
it. So every token that can begin a key is remembered, and the token before the key is put in when
the colon comes. Keys of this kind lie on one line and are not longer than 1024 characters. In the
block style the indentation opens and closes collections.

## Main definitions

* `Yaml.Lexer` — the tokens so far, the indentation, and the keys that a colon can still make.
* `Yaml.tokens` — the tokens of a text.
-/

namespace TextGrammar

namespace Yaml

/-- A place where a key may have begun. -/
structure PossibleKey where
  /-- How many tokens come before the key. -/
  before : Nat
  required : Bool
  start : Cursor

/-- A text of which some tokens have been read. -/
structure Lexer where
  cursor : Cursor
  /-- The tokens, the latest first. -/
  tokens : List Token := []
  /-- The columns of the open collections of the block style, the innermost first; `-1` is outside
  all of them. -/
  indents : List Int := []
  keyAllowed : Bool := true
  /-- The place where a key of the innermost collection may have begun. -/
  possibleKey : Option PossibleKey := none
  /-- The same for the collections around every open bracket. -/
  outerKeys : List (Option PossibleKey) := []

namespace Lexer

/-- The column of the innermost open collection of the block style. -/
def indent (l : Lexer) : Int := l.indents.head?.getD (-1)

def inBlock (l : Lexer) : Bool := l.outerKeys.isEmpty

def emit (l : Lexer) (t : Token) : Lexer := { l with tokens := t :: l.tokens }

def advance (l : Lexer) : Lexer := { l with cursor := l.cursor.advance }

/-- Puts tokens in after the first `before` ones. -/
def insertAfter (l : Lexer) (before : Nat) (new : List Token) : Lexer :=
  let later := l.tokens.length - before
  { l with tokens := l.tokens.take later ++ new.reverse ++ l.tokens.drop later }

/-- Opens a collection of the block style at a column, unless one is open there: the token that
begins it, if so. -/
def openBlock (l : Lexer) (column : Nat) (start : Token) : Lexer × List Token :=
  if l.indent < column then ({ l with indents := column :: l.indents }, [start]) else (l, [])

/-- Closes the collections of the block style beyond a column, which are the first of `indents`. -/
def closeBlocksOf (column : Int) (l : Lexer) : (indents : List Int) → Lexer
  | [] => { l with indents := [] }
  | i :: indents =>
    if i > column then closeBlocksOf column (l.emit .blockEnd) indents
    else { l with indents := i :: indents }

/-- Closes the collections of the block style beyond a column; brackets hide the indentation. -/
def closeBlocks (l : Lexer) (column : Int) : Lexer :=
  if l.inBlock then closeBlocksOf column l l.indents else l

/-! ## Keys -/

/-- Gives up the key that may have begun. -/
def dropKey (l : Lexer) : Except Fault Lexer :=
  if l.possibleKey.any (·.required) then .error .missingColon
  else .ok { l with possibleKey := none }

/-- Remembers that a key may begin here. -/
def markKey (l : Lexer) : Except Fault Lexer :=
  if l.keyAllowed then do
    let l ← l.dropKey
    let required := l.inBlock && l.indent = (l.cursor.column : Int)
    pure { l with possibleKey := some ⟨l.tokens.length, required, l.cursor⟩ }
  else pure l

/-- Whether a key that begins there can still be open here: it lies on one line and is not too
long. -/
def canStillEnd (l : Lexer) (key : PossibleKey) : Bool :=
  key.start.line = l.cursor.line && l.cursor.index - key.start.index ≤ 1024

/-- The key that may have begun, if it can still be open. -/
def livingKey (l : Lexer) (key : Option PossibleKey) : Except Fault (Option PossibleKey) :=
  match key with
  | none => .ok none
  | some k =>
    if l.canStillEnd k then .ok key else if k.required then .error .missingColon else .ok none

/-- Gives up all keys that cannot be open any more. -/
def dropStaleKeys (l : Lexer) : Except Fault Lexer := do
  let possibleKey ← l.livingKey l.possibleKey
  let outerKeys ← l.outerKeys.mapM l.livingKey
  pure { l with possibleKey, outerKeys }

/-! ## Between tokens -/

/-- The place after the spaces, comments and line ends ahead, and whether a line end is among them.
At most `fuel` lines are passed. -/
def skipLines : (fuel : Nat) → Cursor → Cursor × Bool
  | 0, c => (c, false)
  | fuel + 1, c =>
    let c := c.skipSpaces.skipComment
    match c.lineBreak? with
    | none => (c, false)
    | some (_, c) => ((skipLines fuel c).1, true)

/-- Goes on to the next token. -/
def skipToToken (l : Lexer) : Lexer :=
  let c := if l.cursor.index = 0 ∧ l.cursor.sees '\uFEFF' then l.cursor.advance else l.cursor
  let (cursor, brokeLine) := skipLines (c.rest.length + 1) c
  { l with cursor, keyAllowed := l.keyAllowed || (brokeLine && l.inBlock) }

/-! ## Marks and directives -/

/-- Ends the document before a directive or a mark of a document. -/
def endDocument (l : Lexer) : Except Fault Lexer := do
  let l ← (l.closeBlocks (-1)).dropKey
  pure { l with keyAllowed := false }

/-- Reads a mark of a document, which is three characters long. -/
def readMark (l : Lexer) (t : Token) : Except Fault Lexer := do
  let l ← l.endDocument
  pure { l.emit t with cursor := l.cursor.advanceBy 3 }

/-- Whether a character can be part of the name of a directive or an anchor. -/
def isNameChar (c : Char) : Bool := c.isAlphanum || c = '-' || c = '_'

/-- Whether a space, a line end or the end of the text comes next. -/
def endsField (c : Option Char) : Bool := c.all fun ch => ch = ' ' || isBreak ch

/-- The number ahead and the place after it. -/
def readNumber (c : Cursor) : Except Fault (Nat × Cursor) :=
  let (digits, after) := c.takeWhile Char.isDigit
  if digits = [] then .error .badDirective
  else .ok (digits.foldl (fun n d => 10 * n + (d.toNat - 48)) 0, after)

/-- The two numbers of a version, of which the first one counts. -/
def readVersion (c : Cursor) : Except Fault (Token × Cursor) := do
  let (major, c) ← readNumber c.skipSpaces
  if !c.sees '.' then throw .badDirective
  let (_, c) ← readNumber c.advance
  if !endsField c.rest.head? then throw .badDirective
  pure (.version major, c)

/-- Reads a directive, whose mark is ahead. -/
def readDirective (l : Lexer) : Except Fault Lexer := do
  let l ← l.endDocument
  let (name, c) := l.cursor.advance.takeWhile isNameChar
  if name = [] ∨ !endsField c.rest.head? then throw .badDirective
  let (token, c) ←
    if name = "YAML".toList then readVersion c
    else if name = "TAG".toList then throw .unsupportedTag
    else pure (.otherDirective, c.skipWhile (!isBreak ·))
  let c := c.skipSpaces.skipComment
  if !endsLine c.rest.head? then throw .badDirective
  pure { l.emit token with cursor := c }

/-! ## Punctuation -/

def readOpening (l : Lexer) (t : Token) : Except Fault Lexer := do
  let l ← l.markKey
  let outerKeys := l.possibleKey :: l.outerKeys
  pure { (l.emit t).advance with keyAllowed := true, possibleKey := none, outerKeys }

def readClosing (l : Lexer) (t : Token) : Except Fault Lexer := do
  let l ← l.dropKey
  match l.outerKeys with
  | [] => throw .unexpectedToken
  | possibleKey :: outerKeys =>
    pure { (l.emit t).advance with keyAllowed := false, possibleKey, outerKeys }

def readComma (l : Lexer) : Except Fault Lexer := do
  let l ← l.dropKey
  pure { (l.emit .flowEntry).advance with keyAllowed := true }

/-- Opens a collection of the block style where a mark of it stands, if one has to be opened. -/
def openAtMark (l : Lexer) (start : Token) : Except Fault Lexer :=
  if !l.inBlock then .ok l
  else if !l.keyAllowed then .error .misplaced
  else
    let (l, new) := l.openBlock l.cursor.column start
    .ok (new.foldl emit l)

def readDash (l : Lexer) : Except Fault Lexer := do
  let l ← l.openAtMark .blockSequenceStart
  let l ← l.dropKey
  pure { (l.emit .blockEntry).advance with keyAllowed := true }

def readQuestionMark (l : Lexer) : Except Fault Lexer := do
  let l ← l.openAtMark .blockMappingStart
  let l ← l.dropKey
  pure { (l.emit .key).advance with keyAllowed := l.inBlock }

/-- Reads the colon before a value, which may show that a key came before it. -/
def readColon (l : Lexer) : Except Fault Lexer := do
  match l.possibleKey with
  | some k =>
    let (l, new) :=
      if l.inBlock then l.openBlock k.start.column .blockMappingStart else (l, [])
    let l := l.insertAfter k.before (new ++ [.key])
    pure { (l.emit .value).advance with keyAllowed := false, possibleKey := none }
  | none =>
    let l ← l.openAtMark .blockMappingStart
    pure { (l.emit .value).advance with keyAllowed := l.inBlock }

/-! ## Properties and scalars -/

/-- Whether the name of an anchor or alias ends before a character, or at the end of the text. -/
def endsName (c : Option Char) : Bool :=
  endsWord c || c.any ("?:,]\x7d%@\x60".toList.contains ·)

/-- Reads an anchor or an alias, whose mark is ahead. -/
def readAnchor (l : Lexer) (token : Text → Token) : Except Fault Lexer := do
  let l ← l.markKey
  let (name, cursor) := l.cursor.advance.takeWhile isNameChar
  if name = [] ∨ !endsName cursor.rest.head? then throw .badAnchor
  pure { l.emit (token name) with cursor, keyAllowed := false }

/-- Reads a tag; only the one that leaves the meaning open is supported. -/
def readTag (l : Lexer) : Except Fault Lexer := do
  let l ← l.markKey
  let next := l.cursor.peek 1
  if !endsField next then throw .unsupportedTag
  pure { (l.emit .openTag).advance with keyAllowed := false }

def readBlock (l : Lexer) (folded : Bool) : Except Fault Lexer := do
  let l ← l.dropKey
  let (text, cursor) ← blockScalar folded l.indent l.cursor
  pure { l.emit (.scalar text false) with cursor, keyAllowed := true }

def readQuoted (l : Lexer) (double : Bool) : Except Fault Lexer := do
  let l ← l.markKey
  let (text, cursor) ← quotedScalar double l.cursor
  pure { l.emit (.scalar text false) with cursor, keyAllowed := false }

def readPlain (l : Lexer) : Except Fault Lexer := do
  let l ← l.markKey
  let (text, cursor, keyAllowed) := plainScalar (!l.inBlock) (l.indent + 1) l.cursor
  pure { l.emit (.scalar text true) with cursor, keyAllowed }

/-- Whether a plain scalar can begin with a character that is followed by `next`. -/
def startsPlain (inBlock : Bool) (c : Char) (next : Option Char) : Bool :=
  !("-?:,[]\x7b\x7d#&*!|>'\"%@\x60".toList.contains c || endsWord (some c))
    || (!endsWord next && (c = '-' || (inBlock && (c = '?' || c = ':'))))

/-! ## All tokens -/

/-- Reads the token that begins with the character ahead. -/
def readToken (l : Lexer) (c : Char) : Except Fault Lexer :=
  let next := l.cursor.peek 1
  let atLineStart : Bool := l.cursor.column = 0
  if c = '%' ∧ atLineStart then l.readDirective
  else if atLineStart ∧ l.cursor.seesMark '-' then l.readMark .documentStart
  else if atLineStart ∧ l.cursor.seesMark '.' then l.readMark .documentEnd
  else if c = '[' then l.readOpening .flowSequenceStart
  else if c = '\x7b' then l.readOpening .flowMappingStart
  else if c = ']' then l.readClosing .flowSequenceEnd
  else if c = '\x7d' then l.readClosing .flowMappingEnd
  else if c = ',' then l.readComma
  else if c = '-' ∧ endsWord next then l.readDash
  else if c = '?' ∧ (!l.inBlock ∨ endsWord next) then l.readQuestionMark
  else if c = ':' ∧ (!l.inBlock ∨ endsWord next) then l.readColon
  else if c = '*' then l.readAnchor .alias
  else if c = '&' then l.readAnchor .anchor
  else if c = '!' then l.readTag
  else if c = '|' ∧ l.inBlock then l.readBlock false
  else if c = '>' ∧ l.inBlock then l.readBlock true
  else if c = '\'' then l.readQuoted false
  else if c = '"' then l.readQuoted true
  else if startsPlain l.inBlock c next then l.readPlain
  else .error .unexpectedCharacter

/-- Reads the end of the text. -/
def readEnd (l : Lexer) : Except Fault Lexer := do
  let l ← l.endDocument
  pure (l.emit .streamEnd)

/-- Reads all tokens; at most `fuel` before the end. -/
def run : (fuel : Nat) → Lexer → Except Fault Lexer
  | 0, l => l.readEnd
  | fuel + 1, l => do
    let l ← l.skipToToken.dropStaleKeys
    let l := l.closeBlocks l.cursor.column
    match l.cursor.rest.head? with
    | none => l.readEnd
    | some c => run fuel (← l.readToken c)

end Lexer

/-- Whether a text can hold a character. -/
def isAllowed (c : Char) : Bool :=
  let n := c.toNat
  c = '\t' || c = '\n' || c = '\r' || (0x20 ≤ n && n ≤ 0x7E) || n = 0x85
    || (0xA0 ≤ n && n ≤ 0xD7FF) || (0xE000 ≤ n && n ≤ 0xFFFD) || 0x10000 ≤ n

def tokens (t : Text) : Except Fault (List Token) := do
  if !t.all isAllowed then throw .unprintable
  let l ← Lexer.run (t.length + 1) { cursor := { rest := t } }
  pure l.tokens.reverse

end Yaml

end TextGrammar
