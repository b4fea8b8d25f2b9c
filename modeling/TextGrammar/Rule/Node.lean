import TextGrammar.Text.Basic

/-!
# The parts of a rule

A rule is literal text with two constructs in it:

* a reference `#symbol.modifier.modifier#`, which may hold bindings between its hashes;
* a binding `[name:rule]`, or `[name]`, which has no rule of its own.

## Main definitions

* `Binding`, `Reference`, `Node` — the constructs, and a part of a rule.
* `Binding.raw`, `Node.raw` — a part as it is written.
* `Binding.asReference` — what a binding without a rule asks to expand.
-/

namespace TextGrammar

/-- A binding of a name to what a rule expands to; without a rule, a request to expand the name. -/
structure Binding where
  /-- What stands before the first colon. -/
  name : Text
  /-- What stands after the first colon, if there is one. -/
  rule : Option Text
deriving DecidableEq

namespace Binding

def inner (b : Binding) : Text :=
  match b.rule with
  | none => b.name
  | some r => b.name ++ ':' :: r

def raw (b : Binding) : Text := '[' :: b.inner ++ [']']

/-- The binding that is written with `inner` between its brackets: the first colon ends the name. -/
def ofInner (inner : Text) : Binding :=
  let (name, rule) := Text.cutAt ':' inner
  ⟨name, rule⟩

/-- What a binding was read from is what it is written with. -/
@[simp] theorem inner_ofInner (inner : Text) : (ofInner inner).inner = inner := by
  have h := Text.eq_of_cutAt ':' inner
  unfold Binding.inner ofInner
  cases hc : (Text.cutAt ':' inner).2 with
  | none => simpa [hc] using h.symm
  | some r => simpa [hc] using h.symm

/-- A binding whose name holds no colon is read from what it is written with. -/
theorem ofInner_inner {b : Binding} (h : ':' ∉ b.name) : ofInner b.inner = b := by
  obtain ⟨name, rule⟩ := b
  cases rule with
  | none => rw [inner, ofInner, Text.cutAt_of_not_mem h]
  | some r => rw [inner, ofInner, Text.cutAt_append h]

/-- The name of a binding that was read holds no colon. -/
theorem not_mem_name_ofInner (inner : Text) : ':' ∉ (ofInner inner).name :=
  Text.not_mem_cutAt ':' inner

end Binding

/-- A reference to a symbol, whose expansion runs through modifiers from left to right. -/
structure Reference where
  raw : Text
  symbol : Text
  /-- The names of the modifiers, in the order in which they apply. -/
  modifiers : List Text
  bindings : List Binding
deriving DecidableEq

/-- What a binding without a rule asks to expand: the reference that names it whole. -/
def Binding.asReference (b : Binding) : Reference :=
  ⟨'#' :: b.name ++ ['#'], b.name, [], []⟩

/-- A part of a rule. -/
inductive Node where
  | text (value : Text)
  | binding (b : Binding)
  | reference (r : Reference)
deriving DecidableEq

namespace Node

def raw : Node → Text
  | text value => value
  | binding b => b.raw
  | reference r => r.raw

/-- The reference that a part is, if it is one. -/
def reference? : Node → Option Reference
  | reference r => some r
  | _ => none

/-- The bindings that a part holds: a binding holds itself. -/
def bindings : Node → List Binding
  | text _ => []
  | binding b => [b]
  | reference r => r.bindings

/-- The parts of a rule whose first character is the literal `c`: it joins the text that follows. -/
def literal (c : Char) : List Node → List Node
  | text value :: nodes => text (c :: value) :: nodes
  | nodes => text [c] :: nodes

@[simp] theorem raw_text (value : Text) : (text value).raw = value := rfl

@[simp] theorem raw_binding (b : Binding) : (binding b).raw = b.raw := rfl

@[simp] theorem raw_reference (r : Reference) : (reference r).raw = r.raw := rfl

/-- A literal character comes before all that is written after it. -/
@[simp] theorem flatMap_raw_literal (c : Char) (nodes : List Node) :
    (literal c nodes).flatMap raw = c :: nodes.flatMap raw := by
  unfold literal
  split <;> simp

end Node

end TextGrammar
