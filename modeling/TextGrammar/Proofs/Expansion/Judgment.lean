import TextGrammar.Proofs.Expansion.Invariant
import TextGrammar.Proofs.Rule.Nested
import TextGrammar.Proofs.Select.Offering

/-!
# Judging an expansion part by part

That a step keeps an invariant, or that it ends with an answer, is a judgment on the step. When a
judgment composes along sequences of steps and holds of the steps that write to the run, it is
carried from what the references of a rule ask for to the parts of the rule: all that has to be said
of each reference is what its bindings ask for, which names they write, and what its symbol stands
for.

## Main definitions

* `RuleTable.WellFormedRules`, `Registry.KeepsPlain` — what is asked of rules and of modifiers.
* `Judgment s Q names` — `Q` composes, and allows to write plain values of the names `names`.
* `Reference.Fits` — what has to be said of a reference, given a kind `R` of rules.

## Main results

* `Judgment.expandReference` — a reference that fits expands to a plain text.
* `Judgment.expandNode`, `Judgment.expandNodes` — so do the parts of a well-formed rule whose
  references fit.
* `Judgment.keeps_flatten` — so do whole rules, in a strict expansion that ends with a text.
-/

namespace TextGrammar

variable {σ : Type}

/-! ## What is asked of grammars -/

/-- All candidates of a table are well formed. -/
def RuleTable.WellFormedRules (table : RuleTable) : Prop :=
  ∀ candidates ∈ table.values, ∀ rule ∈ candidates, WellFormedRule rule

/-- All modifiers of a registry make plain texts of plain texts. -/
def Registry.KeepsPlain (modifiers : Registry) : Prop :=
  ∀ m ∈ modifiers.values, ∀ t, Plain t → Plain (m.apply t)

/-- The modifier `loud`, which adds an exclamation mark. -/
def Registry.loud : Registry :=
  .ofList [("loud".toList, .ofFunction "a loud voice".toList (· ++ ['!']))]

theorem keepsPlain_loud : Registry.KeepsPlain .loud := by
  intro m hmem t ht
  obtain rfl : m = .ofFunction "a loud voice".toList (· ++ ['!']) := List.mem_singleton.1 hmem
  exact ht.append (by decide)

/-! ## Where the texts of a run come from -/

section Runs

variable {run : Run σ} {name value : Text}

theorem Run.plain_values_bind (h : ∀ v ∈ run.bound.values, Plain v) (hv : Plain value)
    (keeps : Bool) : ∀ v ∈ (run.bind keeps name value).bound.values, Plain v := by
  intro v hmem
  rcases NameMap.mem_values_insert hmem with rfl | hmem
  · exact hv
  · exact h v hmem

/-- A bound value that is kept as a rule is a candidate by itself. -/
theorem Run.candidates_bind {R : Text → Prop}
    (h : ∀ candidates ∈ run.rules.values, ∀ rule ∈ candidates, R rule) (hv : R value)
    (keeps : Bool) :
    ∀ candidates ∈ (run.bind keeps name value).rules.values, ∀ rule ∈ candidates, R rule := by
  cases keeps with
  | false => exact h
  | true =>
    intro candidates hmem rule hrule
    rcases NameMap.mem_values_insert hmem with rfl | hmem
    · rw [List.mem_singleton.1 hrule]
      exact hv
    · exact h candidates hmem rule hrule

/-- A selector that answers what is offered answers a candidate or the empty text. -/
theorem Run.choose_of_offers {R : Text → Prop} {pick : Pick σ}
    (h : ∀ candidates ∈ run.rules.values, ∀ rule ∈ candidates, R rule) (hnil : R [])
    (hpick : pick.Offers run.selector) {symbol : Text} {candidates : List Text}
    (hr : run.rules.get? symbol = some candidates) : R (run.choose pick symbol candidates).1 := by
  rcases hpick.answer symbol candidates with hnone | hmem
  · rw [show (run.choose pick symbol candidates).1 = [] from hnone]
    exact hnil
  · exact h candidates (NameMap.mem_values_of_get? hr) _ hmem

end Runs

/-! ## Judgments -/

/-- A judgment `Q P x` on steps `x` whose answers are to satisfy `P`: it composes, it allows to
write plain values of the names `names` and to note modifiers, and modifiers add no delimiter. -/
structure Judgment (s : Setting σ) (Q : ∀ {α : Type}, (α → Prop) → Expansion σ α → Prop)
    (names : Text → Prop) : Prop where
  /-- An answer is judged by itself. -/
  answer {α : Type} {P : α → Prop} {a : α} : P a → Q P (pure a)
  /-- What goes on with an answer may rely on what is known of it. -/
  sequence {α β : Type} {P : α → Prop} {P' : β → Prop} {x : Expansion σ α}
    {f : α → Expansion σ β} : Q P x → (∀ a, P a → Q P' (f a)) → Q P' (x >>= f)
  write {name value : Text} : names name → Plain value →
    Q (fun _ => True) (modify (·.bind s.keepsBindings name value) : Expansion σ PUnit)
  note (name reference : Text) :
    Q (fun _ => True) (modify (·.record (.unknownModifier name reference)) : Expansion σ PUnit)
  modifiers : Registry.KeepsPlain s.modifiers

/-- What has to be said of a reference: its bindings ask for rules of the kind `R` and write names
of `names`, and its symbol stands for a rule of the kind `R`. -/
structure Reference.Fits (r : Reference) (s : Setting σ)
    (Q : ∀ {α : Type}, (α → Prop) → Expansion σ α → Prop) (names R : Text → Prop) : Prop where
  asked : ∀ b ∈ r.bindings, R b.asked
  names : ∀ b ∈ r.bindings, b.rule ≠ none → names b.name
  lookUp : Q R (resolve s r.symbol)

namespace Judgment

variable {s : Setting σ} {Q : ∀ {α : Type}, (α → Prop) → Expansion σ α → Prop}
  {names R : Text → Prop} {inner : Text → Expansion σ Text}

theorem applyModifiers (j : Judgment s Q names) (reference : Text) (modifiers : List Text)
    {text : Text} (ht : Plain text) : Q Plain (applyModifiers s reference modifiers text) := by
  induction modifiers generalizing text with
  | nil => exact j.answer ht
  | cons name modifiers ih =>
    rw [TextGrammar.applyModifiers]
    cases hn : s.modifiers.get? name with
    | some m => exact ih (j.modifiers m (NameMap.mem_values_of_get? hn) text ht)
    | none => exact j.sequence (j.note name reference) fun _ _ => ih ht

/-- A binding expands what it asks for, and writes a plain value if it has a rule. -/
theorem runBinding (j : Judgment s Q names) (hinner : ∀ ⦃rule⦄, R rule → Q Plain (inner rule))
    {b : Binding} (hasked : R b.asked) (hname : b.rule ≠ none → names b.name) :
    Q (fun _ => True) (runBinding s inner b) := by
  have hvalue := hinner hasked
  unfold TextGrammar.runBinding
  cases hrule : b.rule with
  | none =>
    rw [Binding.asked_of_none hrule] at hvalue
    exact j.sequence hvalue fun _ _ => j.answer trivial
  | some rule =>
    rw [Binding.asked_of_some hrule] at hvalue
    exact j.sequence hvalue fun value hv => j.write (hname (by rw [hrule]; nofun)) hv

theorem runBindings (j : Judgment s Q names) (hinner : ∀ ⦃rule⦄, R rule → Q Plain (inner rule))
    {bindings : List Binding} (hasked : ∀ b ∈ bindings, R b.asked)
    (hnames : ∀ b ∈ bindings, b.rule ≠ none → names b.name) :
    Q (fun _ => True) (runBindings s inner bindings) := by
  induction bindings with
  | nil => exact j.answer trivial
  | cons b bindings ih =>
    obtain ⟨hfirst, hrest⟩ := List.forall_mem_cons.1 hasked
    obtain ⟨hname, hothers⟩ := List.forall_mem_cons.1 hnames
    exact j.sequence (j.runBinding hinner hfirst hname) fun _ _ => ih hrest hothers

/-- A reference that fits expands to a plain text, since what modifiers give is plain. -/
theorem expandReference (j : Judgment s Q names) (hinner : ∀ ⦃rule⦄, R rule → Q Plain (inner rule))
    (hplain : ∀ ⦃t⦄, Plain t → R t) {r : Reference} (h : r.Fits s Q names R) :
    Q Plain (expandReference s inner r) := by
  refine j.sequence (j.runBindings hinner h.asked h.names) fun _ _ => ?_
  refine j.sequence h.lookUp fun value hv => ?_
  refine j.sequence (hinner hv) fun text ht => ?_
  exact j.sequence (j.applyModifiers r.raw r.modifiers ht) fun changed hc => hinner (hplain hc)

/-- The parts of a well-formed rule whose references fit expand to plain texts. -/
theorem expandNode (j : Judgment s Q names) (hinner : ∀ ⦃rule⦄, R rule → Q Plain (inner rule))
    (hplain : ∀ ⦃t⦄, Plain t → R t) {rule : Text} (hrule : WellFormedRule rule)
    (hfits : ∀ r, .reference r ∈ parse rule → r.Fits s Q names R) {node : Node}
    (hn : node ∈ parse rule) : Q Plain (expandNode s inner node) := by
  have hsound := hrule.isSound hn
  cases node with
  | text value => exact j.answer (of_decide_eq_true hsound)
  | binding b => exact absurd hsound Bool.false_ne_true
  | reference r => exact j.expandReference hinner hplain (hfits r hn)

theorem expandNodes (j : Judgment s Q names) {nodes : List Node}
    (hnodes : ∀ node ∈ nodes, Q Plain (TextGrammar.expandNode s inner node)) :
    Q Plain (expandNodes s inner nodes) := by
  induction nodes with
  | nil => exact j.answer plain_nil
  | cons node nodes ih =>
    obtain ⟨hfirst, hrest⟩ := List.forall_mem_cons.1 hnodes
    refine j.sequence hfirst fun text ht => ?_
    exact j.sequence (ih hrest) fun rest hr => j.answer (ht.append hr)

/-- In a strict expansion that ends with a text, well-formed rules whose references fit come to
plain texts and keep the invariant. -/
theorem keeps_flatten {I : Run σ → Prop} (j : Judgment s (fun P x => Keeps I P x) names)
    (hs : s.strict = true) (hplain : ∀ ⦃t⦄, Plain t → R t)
    (hrule : ∀ ⦃rule⦄, R rule → WellFormedRule rule)
    (hfits : ∀ ⦃rule⦄, R rule → ∀ r, .reference r ∈ parse rule →
      r.Fits s (fun P x => Keeps I P x) names R) (levels : Nat) :
    ∀ ⦃rule⦄, R rule → Keeps I Plain (flatten s levels rule) := by
  induction levels with
  | zero =>
    intro rule hr run last text hrun hx
    rcases flatten_eq_ok_of_strict hs hx with ⟨hnone, rfl, rfl⟩ | ⟨fewer, hfewer, -⟩
    · exact ⟨hasSyntax_eq_false_iff.1 hnone, hrun⟩
    · omega
  | succ levels ih =>
    intro rule hr run last text hrun hx
    rcases flatten_eq_ok_of_strict hs hx with ⟨hnone, rfl, rfl⟩ | ⟨fewer, hfewer, -, -, hparts⟩
    · exact ⟨hasSyntax_eq_false_iff.1 hnone, hrun⟩
    · obtain rfl : levels = fewer := Nat.succ.inj hfewer
      have hnodes := j.expandNodes fun node hn => j.expandNode ih hplain (hrule hr) (hfits hr) hn
      exact hnodes hrun hparts

end Judgment

end TextGrammar
