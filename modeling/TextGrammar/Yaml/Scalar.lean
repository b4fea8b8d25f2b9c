import TextGrammar.Yaml.Token
import TextGrammar.Json.Reader

/-!
# The texts of scalars

A scalar stands without quotes, between quotes, or as a block that its indentation holds together.
Line ends inside it are folded: one becomes a space, of several the first is dropped; a literal
block keeps them.

## Main definitions

* `Yaml.plainScalar`, `Yaml.quotedScalar`, `Yaml.blockScalar` — the text of a scalar of each style
  and the place after it.
-/

namespace TextGrammar

namespace Yaml

/-- What a folded line end is, given the line ends after it. -/
def foldBreak (first : Char) (others : Text) : Text :=
  (if first ≠ '\n' then [first] else if others = [] then [' '] else []) ++ others

/-! ## Plain scalars -/

/-- Whether a plain scalar ends before the character ahead, which is followed by `next`. -/
def endsPlain (inFlow : Bool) (c : Char) (next : Option Char) : Bool :=
  c = ' ' || c = '\t' || isBreak c
    || (c = ':' && (endsWord next || (inFlow && next.any (",[]\x7b\x7d".toList.contains ·))))
    || (inFlow && ",?[]\x7b\x7d".toList.contains c)

/-- The characters of a plain scalar at the start of a text. -/
def plainRun (inFlow : Bool) : Text → Text
  | [] => []
  | c :: t => if endsPlain inFlow c t.head? then [] else c :: plainRun inFlow t

/-- What stands between two runs of a plain scalar. -/
structure PlainGap where
  /-- The text that joins the runs; empty when the scalar ends here. -/
  text : Text
  cursor : Cursor
  brokeLine : Bool

/-- The further line ends and spaces of a gap, up to a mark of a document; `none` when the mark is
there. At most `fuel` characters are passed. -/
def plainBreaks : (fuel : Nat) → Cursor → Option Text × Cursor
  | 0, c => (some [], c)
  | fuel + 1, c =>
    if c.sees ' ' then plainBreaks fuel c.advance
    else
      match c.lineBreak? with
      | none => (some [], c)
      | some (b, c) =>
        if c.seesAnyMark then (none, c)
        else
          let (rest, c) := plainBreaks fuel c
          (rest.map (b :: ·), c)

/-- The gap after a run of a plain scalar. -/
def plainGap (c : Cursor) : PlainGap :=
  let (spaces, c) := c.takeWhile (· = ' ')
  match c.lineBreak? with
  | none => ⟨spaces, c, false⟩
  | some (b, c) =>
    if c.seesAnyMark then ⟨[], c, true⟩
    else
      match plainBreaks c.rest.length c with
      | (some others, c) => ⟨foldBreak b others, c, true⟩
      | (none, c) => ⟨[], c, true⟩

/-- The rest of a plain scalar after the text `gap`, the place after it, and whether a line end was
passed since its last run. At most `fuel` runs are read. -/
def plainRuns (inFlow : Bool) (indent : Int) :
    (fuel : Nat) → (gap : Text) → (brokeLine : Bool) → Cursor → Text × Cursor × Bool
  | 0, _, brokeLine, c => ([], c, brokeLine)
  | fuel + 1, gap, brokeLine, c =>
    let run := plainRun inFlow c.rest
    if c.sees '#' ∨ run = [] then ([], c, brokeLine)
    else
      let next := plainGap (Cursor.advanceBy run.length c)
      if next.text = [] ∨ next.cursor.sees '#'
          ∨ (!inFlow ∧ (next.cursor.column : Int) < indent) then
        (gap ++ run, next.cursor, next.brokeLine)
      else
        let (rest, c, brokeLine) :=
          plainRuns inFlow indent fuel next.text next.brokeLine next.cursor
        (gap ++ run ++ rest, c, brokeLine)

/-- A plain scalar: its text, the place after it, and whether a line end comes before that place. In
the block style its lines are indented by `indent` at least. -/
def plainScalar (inFlow : Bool) (indent : Int) (c : Cursor) : Text × Cursor × Bool :=
  plainRuns inFlow indent c.rest.length [] false c

/-! ## Quoted scalars -/

/-- The line ends ahead and the blanks between them; no mark of a document may begin a line. At most
`fuel` lines are passed. -/
def quotedBreaks : (fuel : Nat) → Cursor → Except Fault (Text × Cursor)
  | 0, c => .ok ([], c)
  | fuel + 1, c =>
    if c.seesAnyMark then .error .openQuote
    else
      let c := c.skipWhile fun ch => ch = ' ' || ch = '\t'
      match c.lineBreak? with
      | none => .ok ([], c)
      | some (b, c) => (quotedBreaks fuel c).map fun r => (b :: r.1, r.2)

/-- The blanks and line ends ahead, folded. -/
def quotedGap (c : Cursor) : Except Fault (Text × Cursor) :=
  let (blanks, c) := c.takeWhile fun ch => ch = ' ' || ch = '\t'
  match c.lineBreak? with
  | none => if c.rest = [] then .error .openQuote else .ok (blanks, c)
  | some (b, c) => (quotedBreaks (c.rest.length + 1) c).map fun r => (foldBreak b r.1, r.2)

/-- The characters that a backslash can stand before, with what they mean. -/
def escapedChars : List (Char × Char) := [
  ('0', '\x00'), ('a', '\x07'), ('b', '\x08'), ('t', '\t'), ('\t', '\t'), ('n', '\n'),
  ('v', '\x0b'), ('f', '\x0c'), ('r', '\r'), ('e', '\x1b'), (' ', ' '), ('"', '"'), ('\\', '\\'),
  ('/', '/'), ('N', '\u0085'), ('_', '\u00a0'), ('L', '\u2028'), ('P', '\u2029')]

/-- How many hexadecimal digits follow a character after a backslash. -/
def escapeWidth? (c : Char) : Option Nat :=
  if c = 'x' then some 2 else if c = 'u' then some 4 else if c = 'U' then some 8 else none

/-- What a backslash, just before the place, stands for, and the place after it. -/
def escape (c : Cursor) : Except Fault (Text × Cursor) :=
  match c.rest with
  | [] => .error .badEscape
  | e :: digits =>
    match escapedChars.find? (·.1 = e) with
    | some (_, meaning) => .ok ([meaning], c.advance)
    | none =>
      match escapeWidth? e with
      | some width =>
        match Json.hexNumber? (digits.take width) with
        | some n =>
          if digits.length < width ∨ n > 0x10FFFF then .error .badEscape
          else
            match Json.charOf? n with
            | some ch => .ok ([ch], Cursor.advanceBy (width + 1) c)
            | none => .error .halfCharacter
        | none => .error .badEscape
      | none =>
        match c.lineBreak? with
        | some (_, c) => quotedBreaks (c.rest.length + 1) c
        | none => .error .badEscape

/-- The rest of a quoted scalar and the place after its closing quote. At most `fuel` parts are
read. -/
def quotedParts (double : Bool) : (fuel : Nat) → Cursor → Except Fault (Text × Cursor)
  | 0, _ => .error .openQuote
  | fuel + 1, c =>
    match c.rest with
    | [] => .error .openQuote
    | ch :: t =>
      let continueWith (part : Text) (c : Cursor) :=
        (quotedParts double fuel c).map fun r => (part ++ r.1, r.2)
      if ch = ' ' ∨ ch = '\t' ∨ isBreak ch then do
        let (part, c) ← quotedGap c
        continueWith part c
      else if double then
        if ch = '"' then .ok ([], c.advance)
        else if ch = '\\' then do
          let (part, c) ← escape c.advance
          continueWith part c
        else continueWith [ch] c.advance
      else if ch = '\'' then
        if t.head? = some '\'' then continueWith ['\''] c.advance.advance
        else .ok ([], c.advance)
      else continueWith [ch] c.advance

/-- A quoted scalar, whose opening quote is ahead: its text and the place after it. -/
def quotedScalar (double : Bool) (c : Cursor) : Except Fault (Text × Cursor) :=
  quotedParts double (c.rest.length + 1) c.advance

/-! ## Block scalars -/

/-- What the header of a block scalar says. -/
structure BlockHeader where
  /-- Whether the line ends at the end are all kept, or all dropped; one is kept otherwise. -/
  keep : Option Bool
  /-- How many more spaces its lines are indented by. -/
  increment : Option Nat

/-- What a character says about the line ends at the end. -/
def chomping? (c : Option Char) : Option Bool :=
  if c = some '+' then some true else if c = some '-' then some false else none

/-- What a character says about the indentation; `some 0` is not allowed. -/
def increment? (c : Option Char) : Option Nat :=
  match c with
  | some d => if d.isDigit then some (d.toNat - 48) else none
  | none => none

/-- The header of a block scalar, after its mark, and the place after the line it stands on. -/
def blockHeader (c : Cursor) : Except Fault (BlockHeader × Cursor) := do
  let (header, c) :=
    match chomping? (c.peek 0), increment? (c.peek 0) with
    | some keep, _ =>
      match increment? (c.peek 1) with
      | some n => (BlockHeader.mk (some keep) (some n), Cursor.advanceBy 2 c)
      | none => (⟨some keep, none⟩, c.advance)
    | none, some n =>
      match chomping? (c.peek 1) with
      | some keep => (⟨some keep, some n⟩, Cursor.advanceBy 2 c)
      | none => (⟨none, some n⟩, c.advance)
    | none, none => (⟨none, none⟩, c)
  if header.increment = some 0 then throw .badHeader
  if !(c.sees ' ' || endsLine c.rest.head?) then throw .badHeader
  let c := c.skipSpaces.skipComment
  if !endsLine c.rest.head? then throw .badHeader
  match c.lineBreak? with
  | some (_, c) => pure (header, c)
  | none => pure (header, c)

/-- The line ends ahead, the widest indentation among them, and the place after them. At most `fuel`
characters are passed. -/
def blockIndentation (widest : Nat) : (fuel : Nat) → Cursor → Text × Nat × Cursor
  | 0, c => ([], widest, c)
  | fuel + 1, c =>
    if c.sees ' ' then
      let c := c.advance
      blockIndentation (max widest c.column) fuel c
    else
      match c.lineBreak? with
      | none => ([], widest, c)
      | some (b, c) =>
        let (breaks, widest, c) := blockIndentation widest fuel c
        (b :: breaks, widest, c)

/-- The place after the spaces ahead, as far as they lie before the column `indent`. -/
def skipIndent (indent : Nat) (c : Cursor) : Cursor :=
  Cursor.advanceBy (((c.rest.take (indent - c.column)).takeWhile (· = ' ')).length) c

/-- The line ends ahead with the indentation after each, and the place after them. At most `fuel`
lines are passed. -/
def blockBreaks (indent : Nat) : (fuel : Nat) → Cursor → Text × Cursor
  | 0, c => ([], skipIndent indent c)
  | fuel + 1, c =>
    let c := skipIndent indent c
    match c.lineBreak? with
    | none => ([], c)
    | some (b, c) =>
      let (breaks, c) := blockBreaks indent fuel c
      (b :: breaks, c)

def seesBlank (c : Cursor) : Bool := c.sees ' ' || c.sees '\t'

/-- The lines of a block scalar after the line ends `breaks`, with the last line end and the line
ends after it, and the place after them. At most `fuel` lines are read. -/
def blockLines (folded : Bool) (indent : Nat) :
    (fuel : Nat) → (breaks : Text) → Cursor → Text × Text × Text × Cursor
  | 0, breaks, c => ([], [], breaks, c)
  | fuel + 1, breaks, c =>
    if c.column = indent ∧ c.rest ≠ [] then
      let startsBlank := seesBlank c
      let (line, c) := c.takeWhile (!isBreak ·)
      let (last, c) : Text × Cursor :=
        match c.lineBreak? with
        | some (b, c) => ([b], c)
        | none => ([], c)
      let (after, c) := blockBreaks indent c.rest.length c
      if c.column = indent ∧ c.rest ≠ [] then
        let joint :=
          if folded ∧ last = ['\n'] ∧ !startsBlank ∧ !seesBlank c then
            if after = [] then [' '] else []
          else last
        let (rest, last, tail, c) := blockLines folded indent fuel after c
        (breaks ++ line ++ joint ++ rest, last, tail, c)
      else (breaks ++ line, last, after, c)
    else ([], [], breaks, c)

/-- A block scalar, whose mark is ahead: its text and the place after it. Its lines are indented
more than `indent`. -/
def blockScalar (folded : Bool) (indent : Int) (c : Cursor) : Except Fault (Text × Cursor) := do
  let (header, c) ← blockHeader c.advance
  let least := (max (indent + 1) 1).toNat
  let (breaks, column, c) :=
    match header.increment with
    | some n =>
      let column := least + n - 1
      let (breaks, c) := blockBreaks column c.rest.length c
      (breaks, column, c)
    | none =>
      let (breaks, widest, c) := blockIndentation 0 c.rest.length c
      (breaks, max least widest, c)
  let (text, last, tail, c) := blockLines folded column (c.rest.length + 1) breaks c
  let ending :=
    match header.keep with
    | some true => last ++ tail
    | some false => []
    | none => last
  pure (text ++ ending, c)

end Yaml

end TextGrammar
