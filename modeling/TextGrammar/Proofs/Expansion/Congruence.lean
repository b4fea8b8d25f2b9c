import TextGrammar.Proofs.Expansion.Equations

/-!
# Comparing two expansions step by step

Two expansions with different settings do the same steps in the same order: they give answers, go on
after a step, look symbols up, write bound values, note unknown modifiers and stop at the depth
limit. A relation between steps that all of these keep relates the two expansions as a whole. Facts
about one expansion are the case of a relation that looks at one side only.

## Main definitions

* `Congruence s t Q` — the relation `Q` between steps with the settings `s` and `t` is kept by
  everything that the parts of a rule are expanded with.

## Main results

* `Congruence.expandNodes` — parts expand to related steps when the rules inside them do.
* `Congruence.flatten` — rules expand to related steps when stopping at the limit does.
-/

namespace TextGrammar

variable {σ α : Type}

/-- A relation between the steps of two expansions that everything which the parts of a rule are
expanded with keeps. -/
structure Congruence (s t : Setting σ) (Q : ∀ {α : Type}, Expansion σ α → Expansion σ α → Prop) :
    Prop where
  answer {α : Type} (a : α) : Q (pure a) (pure a)
  sequence {α β : Type} {x y : Expansion σ α} {f g : α → Expansion σ β} :
    Q x y → (∀ a, Q (f a) (g a)) → Q (x >>= f) (y >>= g)
  lookUp (symbol : Text) : Q (resolve s symbol) (resolve t symbol)
  write (name value : Text) : Q (modify (·.bind s.keepsBindings name value) : Expansion σ PUnit)
    (modify (·.bind t.keepsBindings name value))
  note (name reference : Text) : Q (modify (·.record (.unknownModifier name reference)))
    (modify (·.record (.unknownModifier name reference)) : Expansion σ PUnit)
  /-- The modifiers of one name change texts in one way. -/
  modifiers (name : Text) :
    (s.modifiers.get? name).map Modifier.apply = (t.modifiers.get? name).map Modifier.apply

namespace Congruence

variable {s t : Setting σ} {Q : ∀ {α : Type}, Expansion σ α → Expansion σ α → Prop}
  {inner inner' : Text → Expansion σ Text}

theorem applyModifiers (c : Congruence s t Q) (reference : Text) (names : List Text) (text : Text) :
    Q (applyModifiers s reference names text) (applyModifiers t reference names text) := by
  induction names generalizing text with
  | nil => exact c.answer text
  | cons name names ih =>
    have hm := c.modifiers name
    rw [TextGrammar.applyModifiers, TextGrammar.applyModifiers]
    cases hs : s.modifiers.get? name with
    | none =>
      cases ht : t.modifiers.get? name with
      | none => exact c.sequence (c.note name reference) fun _ => ih text
      | some m => rw [hs, ht] at hm; cases hm
    | some m =>
      cases ht : t.modifiers.get? name with
      | none => rw [hs, ht] at hm; cases hm
      | some m' =>
        rw [hs, ht] at hm
        have happly : m.apply = m'.apply := Option.some.inj hm
        show Q (TextGrammar.applyModifiers s reference names (m.apply text))
          (TextGrammar.applyModifiers t reference names (m'.apply text))
        rw [happly]
        exact ih (m'.apply text)

theorem runBinding (c : Congruence s t Q) (hinner : ∀ rule, Q (inner rule) (inner' rule))
    (b : Binding) : Q (runBinding s inner b) (runBinding t inner' b) := by
  unfold TextGrammar.runBinding
  cases b.rule with
  | none => exact c.sequence (hinner _) fun _ => c.answer ()
  | some rule => exact c.sequence (hinner rule) fun value => c.write b.name value

theorem runBindings (c : Congruence s t Q) (hinner : ∀ rule, Q (inner rule) (inner' rule))
    (bindings : List Binding) :
    Q (runBindings s inner bindings) (runBindings t inner' bindings) := by
  induction bindings with
  | nil => exact c.answer ()
  | cons b bindings ih => exact c.sequence (c.runBinding hinner b) fun _ => ih

theorem expandReference (c : Congruence s t Q) (hinner : ∀ rule, Q (inner rule) (inner' rule))
    (r : Reference) : Q (expandReference s inner r) (expandReference t inner' r) := by
  refine c.sequence (c.runBindings hinner r.bindings) fun _ => ?_
  refine c.sequence (c.lookUp r.symbol) fun value => ?_
  refine c.sequence (hinner value) fun text => ?_
  exact c.sequence (c.applyModifiers r.raw r.modifiers text) fun changed => hinner changed

theorem expandNode (c : Congruence s t Q) (hinner : ∀ rule, Q (inner rule) (inner' rule))
    (node : Node) : Q (expandNode s inner node) (expandNode t inner' node) := by
  cases node with
  | text value => exact c.answer value
  | binding b => exact c.sequence (c.runBinding hinner b) fun _ => c.answer b.raw
  | reference r => exact c.expandReference hinner r

/-- Parts of a rule expand to related steps when the rules inside them do. -/
theorem expandNodes (c : Congruence s t Q) (hinner : ∀ rule, Q (inner rule) (inner' rule))
    (nodes : List Node) : Q (expandNodes s inner nodes) (expandNodes t inner' nodes) := by
  induction nodes with
  | nil => exact c.answer []
  | cons node nodes ih =>
    refine c.sequence (c.expandNode hinner node) fun text => ?_
    exact c.sequence ih fun rest => c.answer (text ++ rest)

/-- Rules expand to related steps when stopping at the limit is related to stopping there; `ask`
says that related steps may be chosen between by whether the limit has been passed. -/
theorem flatten (c : Congruence s t Q)
    (stop : ∀ rule, Q (tooDeep s rule) (tooDeep t rule))
    (ask : ∀ {x y x' y' : Expansion σ Text}, Q x y → Q x' y' →
      Q (do if (← get).truncated then x else x') (do if (← get).truncated then y else y'))
    (levels : Nat) (rule : Text) : Q (flatten s levels rule) (flatten t levels rule) := by
  induction levels generalizing rule with
  | zero =>
    unfold TextGrammar.flatten
    cases hasSyntax rule with
    | false => exact c.answer rule
    | true => exact stop rule
  | succ levels ih =>
    unfold TextGrammar.flatten
    cases hasSyntax rule with
    | false => exact c.answer rule
    | true => exact ask (stop rule) (c.expandNodes ih (parse rule))

end Congruence

end TextGrammar
