import TextGrammar.Value.Basic
import TextGrammar.Text.Integer
import TextGrammar.Text.Quoted

/-!
# Reading JSON

A document is one value with white space around it. Besides what the format allows, the words `NaN`,
`Infinity` and `-Infinity` are numbers. Whole numbers are exact, all others are rounded. A key that
is repeated keeps its first place and takes its last value. What cannot be read is reported with the
first place where it goes wrong.

## Main definitions

* `readJson` — the value of a document, or what is wrong with it.
* `JsonFault`, `JsonFault.message` — what is wrong, and the same in words.
-/

namespace TextGrammar

inductive JsonProblem where
  | byteOrderMark
  | noValue
  | noKey
  | noColon
  | noComma
  | extraData
  | openText
  | controlCharacter
  | unknownEscape
  | badCodePoint
deriving DecidableEq

/-- What is wrong with a document. A problem comes with the number of characters that are left where
it shows. A text with half a character is no error in JSON, but it cannot be written down. -/
inductive JsonFault where
  | syntaxError (problem : JsonProblem) (left : Nat)
  | tooManyDigits (count : Nat)
  | halfCharacter
deriving DecidableEq

def JsonProblem.text : JsonProblem → Text
  | byteOrderMark => "Unexpected UTF-8 BOM (decode using utf-8-sig)".toList
  | noValue => "Expecting value".toList
  | noKey => "Expecting property name enclosed in double quotes".toList
  | noColon => "Expecting ':' delimiter".toList
  | noComma => "Expecting ',' delimiter".toList
  | extraData => "Extra data".toList
  | openText => "Unterminated string starting at".toList
  | controlCharacter => "Invalid control character at".toList
  | unknownEscape => "Invalid \\escape".toList
  | badCodePoint => "Invalid \\uXXXX escape".toList

/-- The line and the column, both from one, of the place that follows `before`. -/
def lineAndColumn (before : Text) : Nat × Nat :=
  (before.count '\n' + 1, (before.reverse.takeWhile (· ≠ '\n')).length + 1)

/-- What is wrong with `document`, in words. -/
def JsonFault.message (document : Text) : JsonFault → Text
  | syntaxError problem left =>
    let position := document.length - left
    let (line, column) := lineAndColumn (document.take position)
    problem.text ++ ": line ".toList ++ decimalText line ++ " column ".toList
      ++ decimalText column ++ " (char ".toList ++ decimalText position ++ [')']
  | tooManyDigits count =>
    "Exceeds the limit (".toList ++ decimalText maxIntegerDigits
      ++ " digits) for integer string conversion: value has ".toList ++ decimalText count
      ++ " digits; use sys.set_int_max_str_digits() to increase the limit".toList
  | halfCharacter => "surrogates not allowed".toList

namespace Json

/-- The problem that shows before `rest`. -/
def fault {α : Type} (problem : JsonProblem) (rest : Text) : Except JsonFault α :=
  .error (.syntaxError problem rest.length)

def isBlank (c : Char) : Bool := c = ' ' || c = '\t' || c = '\n' || c = '\r'

def skipBlanks (t : Text) : Text := t.dropWhile isBlank

/-! ## Texts -/

def hexValue? (c : Char) : Option Nat :=
  if '0' ≤ c ∧ c ≤ '9' then some (c.toNat - 48)
  else if 'a' ≤ c ∧ c ≤ 'f' then some (c.toNat - 87)
  else if 'A' ≤ c ∧ c ≤ 'F' then some (c.toNat - 55)
  else none

def hexNumber? (digits : Text) : Option Nat := (digits.mapM hexValue?).map (ofDigits 16)

/-- The characters that a backslash can stand before, with what they mean. -/
def escapes : List (Char × Char) :=
  [('"', '"'), ('\\', '\\'), ('/', '/'), ('b', '\x08'), ('f', '\x0c'), ('n', '\n'), ('r', '\r'),
    ('t', '\t')]

/-- Whether a number is the first half of a pair that stands for one character. -/
def isHighHalf (n : Nat) : Bool := 0xD800 ≤ n && n < 0xDC00

/-- Whether a number is the second half of a pair that stands for one character. -/
def isLowHalf (n : Nat) : Bool := 0xDC00 ≤ n && n < 0xE000

/-- The character of a code point, which must not be half a pair. -/
def charOf? (n : Nat) : Option Char :=
  if isHighHalf n || isLowHalf n then none else some (Char.ofNat n)

/-- The character of a code point, and what follows it. -/
def charBefore (n : Nat) (rest : Text) : Except JsonFault (Char × Text) :=
  match charOf? n with
  | some c => .ok (c, rest)
  | none => .error .halfCharacter

/-- The code point of four hexadecimal digits at the start of `t`, after `\u`; a character has to
follow them. -/
def readUnit (t : Text) : Except JsonFault (Nat × Text) :=
  let bad := JsonFault.syntaxError .badCodePoint (t.length + 1)
  if t.length ≤ 4 then .error bad
  else
    match hexNumber? (t.take 4) with
    | some n => .ok (n, t.drop 4)
    | none => .error bad

/-- The character that is given after `\u`: by one code point, or by the two halves of a pair. -/
def readCodePoint (t : Text) : Except JsonFault (Char × Text) := do
  let (n, rest) ← readUnit t
  match rest with
  | '\\' :: 'u' :: second =>
    if isHighHalf n ∧ second.length > 4 then
      let (m, rest') ← readUnit second
      if isLowHalf m then
        pure (Char.ofNat (0x10000 + (n - 0xD800) * 0x400 + (m - 0xDC00)), rest')
      else charBefore n rest
    else charBefore n rest
  | _ => charBefore n rest

/-- The rest of a text up to its closing quote, of at most `fuel` characters; `start` is how many
characters are left at its opening quote. -/
def readTextFrom (start : Nat) : (fuel : Nat) → Text → Except JsonFault (Text × Text)
  | 0, _ => .error (.syntaxError .openText start)
  | _ + 1, [] => .error (.syntaxError .openText start)
  | _ + 1, '"' :: t => .ok ([], t)
  | _ + 1, ['\\'] => .error (.syntaxError .openText start)
  | fuel + 1, '\\' :: 'u' :: t => do
    let (c, t) ← readCodePoint t
    let (rest, t) ← readTextFrom start fuel t
    pure (c :: rest, t)
  | fuel + 1, '\\' :: e :: t =>
    match escapes.find? (·.1 = e) with
    | some (_, c) => do
      let (rest, t) ← readTextFrom start fuel t
      pure (c :: rest, t)
    | none => fault .unknownEscape ('\\' :: e :: t)
  | fuel + 1, c :: t =>
    if c.toNat ≤ 0x1F then fault .controlCharacter (c :: t)
    else do
      let (rest, t) ← readTextFrom start fuel t
      pure (c :: rest, t)

/-- A text, after its opening quote. -/
def readText (t : Text) : Except JsonFault (Text × Text) :=
  readTextFrom (t.length + 1) (t.length + 1) t

/-! ## Numbers -/

def takeDigits (t : Text) : Text × Text := (t.takeWhile Char.isDigit, t.dropWhile Char.isDigit)

/-- The whole part of a number: a zero alone or digits that begin with another one. -/
def takeWhole (t : Text) : Text × Text :=
  match t with
  | '0' :: rest => (['0'], rest)
  | t => takeDigits t

/-- The digits after a point; without digits the point is not part of the number. -/
def takeFraction (t : Text) : Text × Text :=
  match t with
  | '.' :: rest =>
    let (digits, after) := takeDigits rest
    if digits = [] then ([], t) else (digits, after)
  | t => ([], t)

/-- The exponent; without digits its mark is not part of the number. -/
def takeExponent (t : Text) : Option Int × Text :=
  match t with
  | c :: rest =>
    if c = 'e' ∨ c = 'E' then
      let (negative, rest) := Binary64.takeSign rest
      let (digits, after) := takeDigits rest
      if digits = [] then (none, t)
      else
        let n : Int := Binary64.digitsValue digits
        (some (if negative then -n else n), after)
    else (none, t)
  | [] => (none, t)

def readNumber (t : Text) : Except JsonFault (Value × Text) :=
  let (negative, unsigned) :=
    match t with
    | '-' :: rest => (true, rest)
    | t => (false, t)
  let (whole, rest) := takeWhole unsigned
  if whole = [] then fault .noValue t
  else
    let (fraction, rest) := takeFraction rest
    let (exponent, rest) := takeExponent rest
    if fraction = [] ∧ exponent = none then
      if whole.length > maxIntegerDigits then .error (.tooManyDigits whole.length)
      else
        let n : Int := Binary64.digitsValue whole
        .ok (.integer (if negative then -n else n), rest)
    else
      .ok (.float (.ofDecimal negative (Binary64.digitsValue (whole ++ fraction))
        (exponent.getD 0 - fraction.length)), rest)

/-! ## Values -/

/-- The words that are values. -/
def words : List (Text × Value) :=
  [("null".toList, .null), ("true".toList, .truth true), ("false".toList, .truth false),
    ("NaN".toList, .float .nan), ("Infinity".toList, .float (.infinite false)),
    ("-Infinity".toList, .float (.infinite true))]

/-- The word at the start of a text, and the rest. -/
def readWord? (t : Text) : Option (Value × Text) :=
  words.findSome? fun (w, v) => (Text.dropStart? w t).map fun rest => (v, rest)

mutual

/-- A value; a character takes at most two steps of `fuel`. -/
def readValue (fuel : Nat) (t : Text) : Except JsonFault (Value × Text) :=
  match fuel with
  | 0 => fault .noValue t
  | fuel + 1 =>
    match t with
    | '"' :: rest => do
      let (s, rest) ← readText rest
      pure (.text s, rest)
    | '{' :: rest =>
      match skipBlanks rest with
      | '}' :: after => .ok (.mapping [], after)
      | rest => do
        let (entries, rest) ← readEntries fuel rest
        pure (.mapping (Value.mappingOf Value.same entries), rest)
    | '[' :: rest =>
      match skipBlanks rest with
      | ']' :: after => .ok (.list [], after)
      | rest => do
        let (items, rest) ← readItems fuel rest
        pure (.list items, rest)
    | t =>
      match readWord? t with
      | some r => .ok r
      | none => readNumber t

/-- The items of a list up to its closing bracket. -/
def readItems (fuel : Nat) (t : Text) : Except JsonFault (List Value × Text) :=
  match fuel with
  | 0 => fault .noValue t
  | fuel + 1 => do
    let (v, rest) ← readValue fuel t
    match skipBlanks rest with
    | ']' :: after => pure ([v], after)
    | ',' :: after => do
      let (items, rest) ← readItems fuel (skipBlanks after)
      pure (v :: items, rest)
    | rest => fault .noComma rest

/-- The entries of a mapping up to its closing brace. -/
def readEntries (fuel : Nat) (t : Text) : Except JsonFault (List (Value × Value) × Text) :=
  match fuel with
  | 0 => fault .noKey t
  | fuel + 1 =>
    match t with
    | '"' :: rest => do
      let (key, rest) ← readText rest
      match skipBlanks rest with
      | ':' :: rest => do
        let (v, rest) ← readValue fuel (skipBlanks rest)
        match skipBlanks rest with
        | '}' :: after => pure ([(.text key, v)], after)
        | ',' :: after => do
          let (entries, rest) ← readEntries fuel (skipBlanks after)
          pure ((.text key, v) :: entries, rest)
        | rest => fault .noComma rest
      | rest => fault .noColon rest
    | t => fault .noKey t

end

end Json

/-- The value of a document, or what is wrong with it. -/
def readJson (document : Text) : Except JsonFault Value :=
  if document.head? = some '\uFEFF' then Json.fault .byteOrderMark document
  else do
    let (v, rest) ← Json.readValue (2 * document.length + 2) (Json.skipBlanks document)
    match Json.skipBlanks rest with
    | [] => pure v
    | rest => Json.fault .extraData rest

end TextGrammar
