import TextGrammar.Yaml.Node
import TextGrammar.Yaml.Plain

/-!
# Reading YAML

A text is cut into tokens, the tokens form one node, and the node is a value. Keys are scalars; a
key that is repeated keeps its first place and takes its last value. A mapping can take over the
entries of others, which come before its own.

## Main definitions

* `Yaml.Node.value` — the value of a node.
* `readYaml` — the value of a text, or why it has none.
-/

namespace TextGrammar

namespace Yaml

/-- Whether two keys are one; what is no number is one key, too. -/
def sameKey (v w : Value) : Bool :=
  match v, w with
  | .float .nan, .float .nan => true
  | v, w => v.same w

/-- The entries that a value gives to a mapping it is merged into: its own when it is a mapping, and
those of its items, the last one first, when it is a list of mappings. -/
def mergedEntries : Value → Except Fault (List (Value × Value))
  | .mapping entries => .ok entries
  | .list items => do
    let lists ← items.mapM fun
      | .mapping entries => .ok entries
      | _ => .error Fault.badMerge
    pure lists.reverse.flatten
  | _ => .error .badMerge

def scalarMeaning (text : Text) (plain : Bool) : Except Fault Meaning :=
  if plain then meaning text else .ok (.value (.text text))

namespace Node

def keyMeaning : Node → Except Fault Meaning
  | scalar text plain => scalarMeaning text plain
  | _ => .error .collectionAsKey

mutual

def value : Node → Except Fault Value
  | scalar text plain => do
    match ← scalarMeaning text plain with
    | .value v => pure v
    | _ => throw .keyAsValue
  | sequence items => (values items).map .list
  | mapping nodes => do
    let (merged, own) ← entries nodes
    pure (.mapping (Value.mappingOf sameKey (merged ++ own)))

def values : List Node → Except Fault (List Value)
  | [] => .ok []
  | n :: nodes => do
    let v ← value n
    let vs ← values nodes
    pure (v :: vs)

/-- The entries that a mapping takes over, and its own. -/
def entries : List (Node × Node) → Except Fault (List (Value × Value) × List (Value × Value))
  | [] => .ok ([], [])
  | (key, n) :: nodes => do
    let m ← keyMeaning key
    let v ← value n
    let (merged, own) ← entries nodes
    match m with
    | .value k => pure (merged, (k, v) :: own)
    | .ownValue => pure (merged, (.text ['='], v) :: own)
    | .merge => do
      let others ← mergedEntries v
      pure (others ++ merged, own)

end

end Node

end Yaml

/-- The value of a text, or why it has none. -/
def readYaml (t : Text) : Except Yaml.Fault Value := do
  let tokens ← Yaml.tokens t
  let node ← Yaml.Node.ofTokens tokens
  node.value

end TextGrammar
