import TextGrammar.Yaml.Lexer

/-!
# The nodes of a YAML document

A document is a tree of scalars, sequences and mappings. A node can be named by an anchor, and an
alias stands for the node that was named; a name is given once, and it is known only after its node
ends.

## Main definitions

* `Yaml.Node` — the nodes.
* `Yaml.Node.ofTokens` — the node of the only document of a text.
-/

namespace TextGrammar

namespace Yaml

inductive Node where
  /-- A scalar; a plain one may mean something else than its text. -/
  | scalar (text : Text) (plain : Bool)
  | sequence (items : List Node)
  | mapping (entries : List (Node × Node))

namespace Node

/-- The node that stands where nothing is written. -/
def empty : Node := scalar [] true

/-- Tokens of which some have been read, and the names that were given. -/
structure Reading where
  tokens : List Token
  /-- The names with their nodes, the latest first; a name whose node is being read has none. -/
  anchors : List (Text × Option Node) := []

/-- A part of the grammar: what it reads, or why it reads nothing. -/
abbrev Rule (α : Type) := StateT Reading (Except Fault) α

def next? : Rule (Option Token) := do return (← get).tokens.head?

def skip : Rule Unit := modify fun r => { r with tokens := r.tokens.tail }

/-- Whether the next token is one of some. -/
def sees (ts : List Token) : Rule Bool := do return (← next?).any (ts.contains ·)

def skipIf (t : Token) : Rule Bool := do
  let found ← sees [t]
  if found then skip
  return found

/-- Passes over the next token, which has to be `t`. -/
def expect (t : Token) : Rule Unit := do
  if !(← skipIf t) then throw .unexpectedToken

/-- What a rule reads, or the empty node when one of some tokens comes next. -/
def orEmpty (ends : List Token) (rule : Rule Node) : Rule Node := do
  if ← sees ends then return empty
  rule

/-! ## Names and tags -/

/-- The anchor ahead, if there is one. -/
def anchor? : Rule (Option Text) := do
  match ← next? with
  | some (.anchor name) => skip; return some name
  | _ => return none

/-- The anchor before a node, if there is one, and whether the tag that leaves the meaning open
stands there; they come in either order. -/
def properties : Rule (Option Text × Bool) := do
  match ← anchor? with
  | some name => return (some name, ← skipIf .openTag)
  | none =>
    if ← skipIf .openTag then return (← anchor?, true)
    return (none, false)

/-- The node that a name stands for. -/
def named (name : Text) : Rule Node := do
  match (← get).anchors.find? (·.1 = name) with
  | some (_, some node) => return node
  | _ => throw .badAnchor

/-- Gives a name to the node that a rule reads. -/
def naming (name : Option Text) (rule : Rule Node) : Rule Node := do
  match name with
  | none => rule
  | some name =>
    if (← get).anchors.any (·.1 = name) then throw .badAnchor
    modify fun r => { r with anchors := (name, none) :: r.anchors }
    let node ← rule
    modify fun r => { r with anchors := (name, some node) :: r.anchors }
    return node

/-! ## Nodes -/

mutual

/-- A node. In the block style collections without brackets can stand here, and after a key also a
sequence that is not indented. -/
def node (inBlock afterKey : Bool) : (fuel : Nat) → Rule Node
  | 0 => throw .unexpectedToken
  | fuel + 1 => do
    if let some (.alias name) ← next? then
      skip
      return ← named name
    let (name, isOpen) ← properties
    naming name do
      match ← next? with
      | some .blockEntry =>
        if afterKey then return sequence (← flatItems fuel)
        else if name.isSome || isOpen then return empty
        else throw .unexpectedToken
      | some (.scalar text plain) => skip; return scalar text (plain || isOpen)
      | some .flowSequenceStart => skip; return sequence (← flowItems true fuel)
      | some .flowMappingStart => skip; return mapping (← flowEntries true fuel)
      | some .blockSequenceStart =>
        if inBlock then skip; return sequence (← blockItems fuel)
        else if name.isSome || isOpen then return empty
        else throw .unexpectedToken
      | some .blockMappingStart =>
        if inBlock then skip; return mapping (← blockEntries fuel)
        else if name.isSome || isOpen then return empty
        else throw .unexpectedToken
      | _ => if name.isSome || isOpen then return empty else throw .unexpectedToken

/-- The items of a sequence in the block style, and its end. -/
def blockItems : (fuel : Nat) → Rule (List Node)
  | 0 => throw .unexpectedToken
  | fuel + 1 => do
    if ← skipIf .blockEntry then
      let item ← orEmpty [.blockEntry, .blockEnd] (node true false fuel)
      return item :: (← blockItems fuel)
    expect .blockEnd
    return []

/-- The items of a sequence that is not indented. -/
def flatItems : (fuel : Nat) → Rule (List Node)
  | 0 => throw .unexpectedToken
  | fuel + 1 => do
    if ← skipIf .blockEntry then
      let item ← orEmpty [.blockEntry, .key, .value, .blockEnd] (node true false fuel)
      return item :: (← flatItems fuel)
    return []

/-- The entries of a mapping in the block style, and its end. -/
def blockEntries : (fuel : Nat) → Rule (List (Node × Node))
  | 0 => throw .unexpectedToken
  | fuel + 1 => do
    if ← skipIf .key then
      let ends := [.key, .value, .blockEnd]
      let key ← orEmpty ends (node true true fuel)
      let value ←
        if ← skipIf .value then orEmpty ends (node true true fuel) else pure empty
      return (key, value) :: (← blockEntries fuel)
    expect .blockEnd
    return []

/-- The items of a sequence in brackets, and its end; a comma stands between items, and may stand
before the end. An entry alone is a mapping. -/
def flowItems (first : Bool) : (fuel : Nat) → Rule (List Node)
  | 0 => throw .unexpectedToken
  | fuel + 1 => do
    if ← skipIf .flowSequenceEnd then return []
    if !first then expect .flowEntry
    if ← skipIf .flowSequenceEnd then return []
    if ← skipIf .key then
      let key ← orEmpty [.value, .flowEntry, .flowSequenceEnd] (node false false fuel)
      let value ←
        if ← skipIf .value then orEmpty [.flowEntry, .flowSequenceEnd] (node false false fuel)
        else pure empty
      return mapping [(key, value)] :: (← flowItems false fuel)
    let item ← node false false fuel
    return item :: (← flowItems false fuel)

/-- The entries of a mapping in braces, and its end; a key may stand alone. -/
def flowEntries (first : Bool) : (fuel : Nat) → Rule (List (Node × Node))
  | 0 => throw .unexpectedToken
  | fuel + 1 => do
    if ← skipIf .flowMappingEnd then return []
    if !first then expect .flowEntry
    if ← skipIf .flowMappingEnd then return []
    if ← skipIf .key then
      let key ← orEmpty [.value, .flowEntry, .flowMappingEnd] (node false false fuel)
      let value ←
        if ← skipIf .value then orEmpty [.flowEntry, .flowMappingEnd] (node false false fuel)
        else pure empty
      return (key, value) :: (← flowEntries false fuel)
    let key ← node false false fuel
    return (key, empty) :: (← flowEntries false fuel)

end

/-! ## Documents -/

/-- Passes over the tokens ahead that are `t`. -/
def skipAll (t : Token) : Rule Unit :=
  modify fun r => { r with tokens := r.tokens.dropWhile (· = t) }

/-- Passes over the directives ahead: the version is told once at most, and only its first number
counts. -/
def directives (versionTold : Bool) : (fuel : Nat) → Rule Unit
  | 0 => pure ()
  | fuel + 1 => do
    match ← next? with
    | some (.version major) =>
      if versionTold || major ≠ 1 then throw .badDirective
      skip
      directives true fuel
    | some .otherDirective => skip; directives versionTold fuel
    | _ => pure ()

/-- Whether nothing but the end, a directive or a mark of a document comes next. -/
def seesBoundary : Rule Bool := do
  match ← next? with
  | some (.version _) => return true
  | t => return t.all ([.otherDirective, .documentStart, .documentEnd, .streamEnd].contains ·)

/-- The node of the only document; a text without a document has the empty node. -/
def document : Rule Node := do
  let fuel := 3 * (← get).tokens.length + 3
  if ← sees [.streamEnd] then return empty
  let marked ← seesBoundary
  if marked then
    directives false fuel
    expect .documentStart
  let content ← if marked && (← seesBoundary) then pure empty else node true false fuel
  skipAll .documentEnd
  if !(← sees [.streamEnd]) then throw .severalDocuments
  return content

def ofTokens (tokens : List Token) : Except Fault Node := document.run' { tokens }

end Node

end Yaml

end TextGrammar
