import TextGrammar.Proofs.Expansion.Strictness
import TextGrammar.Proofs.Rule.Nested
import TextGrammar.Proofs.Select.Exchanges
import Mathlib.Logic.Relation

/-!
# Expansions one step at a time

An expansion runs rules inside rules. The machine of this module keeps what is still to be done as a
list of frames, innermost first, so that every point of an expansion is a state of its own and "from
then on" has a meaning. It is proved to end where expanding ends.

## Main definitions

* `Focus`, `Frame`, `Machine` — what is worked on, what it is part of, and both with the run.
* `Machine.next`, `Walks` — one step, and any number of steps.
* `Machine.AtLimit` — the next step passes the depth limit.
* `Machine.write?`, `Machine.offer?` — what the next step binds, and what it offers to the selector.
* `Machine.Change` — what a step may leave of the run.

## Main results

* `walks_flatten` — the machine ends with what a rule expands to.
* `Walks.deterministic` — the ways of the machine never part.
* `Grammar.passesLimit_iff_atLimit` — when an expansion passes the limit.
-/

namespace TextGrammar

variable {σ α β : Type}

/-! ## States and steps -/

/-- What an expansion goes on with when a text is found; `levels` counts the levels that are left
for the rules inside. -/
inductive Frame where
  /-- The text follows `before` in a rule, and the parts `after` follow it. -/
  | parts (levels : Nat) (before : Text) (after : List Node)
  /-- The text is the value of a binding outside every reference. -/
  | outside (b : Binding)
  /-- The text is the value of a binding of a reference, which has more of them. -/
  | binding (levels : Nat) (b : Binding) (more : List Binding) (r : Reference)
  /-- The text is what the symbol of a reference expands to. -/
  | symbol (levels : Nat) (r : Reference)
deriving DecidableEq

/-- What an expansion works on. -/
inductive Focus where
  | rule (levels : Nat) (rule : Text)
  /-- Parts of a rule that are to be expanded and written after `before`. -/
  | parts (levels : Nat) (before : Text) (nodes : List Node)
  /-- Bindings of a reference that are to be run before its symbol is looked up. -/
  | bindings (levels : Nat) (bindings : List Binding) (r : Reference)
  | text (t : Text)
  | failure (e : DepthExceeded)
deriving DecidableEq

/-- A point of an expansion. -/
structure Machine (σ : Type) where
  /-- What is worked on. -/
  focus : Focus
  /-- What is done with it, the next thing first. -/
  frames : List Frame
  run : Run σ

/-- What a binding does with its value: a binding without a rule drops it. -/
def Binding.finish (b : Binding) (s : Setting σ) (value : Text) (run : Run σ) : Run σ :=
  if b.rule = none then run else run.bind s.keepsBindings b.name value

theorem Binding.finish_of_bare (b : Binding) (h : b.rule = none) (s : Setting σ) (value : Text)
    (run : Run σ) : b.finish s value run = run :=
  if_pos h

theorem Binding.finish_of_rule (b : Binding) (h : b.rule ≠ none) (s : Setting σ) (value : Text)
    (run : Run σ) : b.finish s value run = run.bind s.keepsBindings b.name value :=
  if_neg h

/-- The name and the value that a binding writes; a binding without a rule writes nothing. -/
def Binding.write? (b : Binding) (value : Text) : Option (Text × Text) :=
  b.rule.map fun _ => (b.name, value)

theorem Binding.write?_of_rule (b : Binding) (h : b.rule ≠ none) (value : Text) :
    b.write? value = some (b.name, value) := by
  obtain ⟨rule, hrule⟩ := Option.ne_none_iff_exists'.1 h
  rw [write?, hrule, Option.map_some]

namespace Machine

/-- The point after a step of the expansion: its answer is worked on as `focus` says, and a failure
leaves nothing to be done. -/
def settle (frames : List Frame) (focus : α → Focus) :
    EStateM.Result DepthExceeded (Run σ) α → Machine σ
  | .ok a run => ⟨focus a, frames, run⟩
  | .error e run => ⟨.failure e, [], run⟩

theorem settle_run_bind_pure (frames : List Frame) (focus : β → Focus) (x : Expansion σ α)
    (f : α → β) (run : Run σ) : settle frames focus ((x >>= fun a => pure (f a)) run)
      = settle frames (fun a => focus (f a)) (x run) := by
  rw [Expansion.run_bind]
  cases x run <;> rfl

/-- The next point; none after the last one. -/
def next (s : Setting σ) : Machine σ → Option (Machine σ)
  | ⟨.rule levels rule, frames, run⟩ =>
    if hasSyntax rule = false then some ⟨.text rule, frames, run⟩
    else
      match levels with
      | 0 => some (settle frames .text (tooDeep s rule run))
      | levels + 1 =>
        if run.truncated then some (settle frames .text (tooDeep s rule run))
        else some ⟨.parts levels [] (parse rule), frames, run⟩
  | ⟨.parts _ before [], frames, run⟩ => some ⟨.text before, frames, run⟩
  | ⟨.parts levels before (.text value :: after), frames, run⟩ =>
    some ⟨.parts levels (before ++ value) after, frames, run⟩
  | ⟨.parts levels before (.binding b :: after), frames, run⟩ =>
    some ⟨.rule levels b.asked, .outside b :: .parts levels before after :: frames, run⟩
  | ⟨.parts levels before (.reference r :: after), frames, run⟩ =>
    some ⟨.bindings levels r.bindings r, .parts levels before after :: frames, run⟩
  | ⟨.bindings levels (b :: more) r, frames, run⟩ =>
    some ⟨.rule levels b.asked, .binding levels b more r :: frames, run⟩
  | ⟨.bindings levels [] r, frames, run⟩ =>
    some (settle (.symbol levels r :: frames) (.rule levels) (resolve s r.symbol run))
  | ⟨.text t, .parts levels before after :: frames, run⟩ =>
    some ⟨.parts levels (before ++ t) after, frames, run⟩
  | ⟨.text t, .outside b :: frames, run⟩ => some ⟨.text b.raw, frames, b.finish s t run⟩
  | ⟨.text t, .binding levels b more r :: frames, run⟩ =>
    some ⟨.bindings levels more r, frames, b.finish s t run⟩
  | ⟨.text t, .symbol levels r :: frames, run⟩ =>
    some (settle frames (.rule levels) (applyModifiers s r.raw r.modifiers t run))
  | ⟨.text _, [], _⟩ => none
  | ⟨.failure _, _, _⟩ => none

theorem next_rule_of_not_hasSyntax (s : Setting σ) (levels : Nat) {rule : Text}
    (frames : List Frame) (run : Run σ) (hr : hasSyntax rule = false) :
    (⟨.rule levels rule, frames, run⟩ : Machine σ).next s = some ⟨.text rule, frames, run⟩ :=
  if_pos hr

/-- A rule that lies too deep, or comes after the limit is passed, is not gone through. -/
theorem next_rule_of_passedOver (s : Setting σ) {levels : Nat} {rule : Text} (frames : List Frame)
    {run : Run σ} (hr : hasSyntax rule = true) (h : levels = 0 ∨ run.truncated = true) :
    (⟨.rule levels rule, frames, run⟩ : Machine σ).next s
      = some (settle frames .text (tooDeep s rule run)) := by
  cases levels with
  | zero => rw [next, if_neg (by simp [hr])]
  | succ levels =>
    rw [next, if_neg (by simp [hr])]
    exact if_pos (h.resolve_left (Nat.succ_ne_zero levels))

/-- A rule within the limit is gone through part by part, with a level less for the rules inside. -/
theorem next_rule_of_within (s : Setting σ) (levels : Nat) {rule : Text} (frames : List Frame)
    {run : Run σ} (hr : hasSyntax rule = true) (ht : run.truncated = false) :
    (⟨.rule (levels + 1) rule, frames, run⟩ : Machine σ).next s
      = some ⟨.parts levels [] (parse rule), frames, run⟩ := by
  rw [next, if_neg (by simp [hr])]
  exact if_neg (by simp [ht])

/-- At a rule there are three ways to go on: nothing is to be expanded, the rule is gone through, or
it is passed over. -/
theorem next_rule_cases {s : Setting σ} {levels : Nat} {rule : Text} {frames : List Frame}
    {run : Run σ} {m' : Machine σ}
    (h : (⟨.rule levels rule, frames, run⟩ : Machine σ).next s = some m') :
    (hasSyntax rule = false ∧ m' = ⟨.text rule, frames, run⟩) ∨
    (hasSyntax rule = true ∧ run.truncated = false ∧ ∃ fewer, levels = fewer + 1 ∧
      m' = ⟨.parts fewer [] (parse rule), frames, run⟩) ∨
    (hasSyntax rule = true ∧ (levels = 0 ∨ run.truncated = true) ∧
      m' = settle frames .text (tooDeep s rule run)) := by
  cases hr : hasSyntax rule with
  | false =>
    rw [next_rule_of_not_hasSyntax s levels frames run hr] at h
    exact .inl ⟨rfl, (Option.some.inj h).symm⟩
  | true =>
    by_cases hover : levels = 0 ∨ run.truncated = true
    · rw [next_rule_of_passedOver s frames hr hover] at h
      exact .inr (.inr ⟨rfl, hover, (Option.some.inj h).symm⟩)
    · obtain ⟨hlevels, hpassed⟩ := not_or.1 hover
      have ht : run.truncated = false := by simpa using hpassed
      obtain ⟨fewer, rfl⟩ := Nat.exists_eq_succ_of_ne_zero hlevels
      rw [next_rule_of_within s fewer frames hr ht] at h
      exact .inr (.inl ⟨rfl, ht, fewer, rfl, (Option.some.inj h).symm⟩)

theorem next_symbol (s : Setting σ) (levels : Nat) (r : Reference) (t : Text) (frames : List Frame)
    (run : Run σ) : (⟨.text t, .symbol levels r :: frames, run⟩ : Machine σ).next s
      = some ⟨.rule levels (s.modified r.modifiers t), frames,
          run.noted (s.notes r.raw r.modifiers)⟩ := by
  rw [next, applyModifiers_run, settle]

/-- The point where the expansion of a rule of a grammar begins. -/
def start (g : Grammar) (selector : σ) (rule : Text) : Machine σ :=
  ⟨.rule (g.maxDepth + 1).toNat rule, [], g.start selector⟩

/-- The next step passes the limit at `rule`. -/
def AtLimit (m : Machine σ) (rule : Text) : Prop :=
  m.focus = .rule 0 rule ∧ hasSyntax rule = true ∧ m.run.truncated = false

instance (m : Machine σ) (rule : Text) : Decidable (m.AtLimit rule) :=
  inferInstanceAs (Decidable (_ ∧ _ ∧ _))

/-- The point after some steps, or the last one. -/
def after (s : Setting σ) : (steps : Nat) → Machine σ → Machine σ
  | 0, m => m
  | steps + 1, m => (m.next s).elim m (after s steps)

end Machine

/-- The machine comes from one point to another in any number of steps. -/
def Walks (s : Setting σ) : Machine σ → Machine σ → Prop :=
  Relation.ReflTransGen fun m m' => m.next s = some m'

namespace Walks

variable {s : Setting σ} {m m' last : Machine σ}

theorem refl (m : Machine σ) : Walks s m m := Relation.ReflTransGen.refl

theorem trans (h : Walks s m m') (h' : Walks s m' last) : Walks s m last :=
  Relation.ReflTransGen.trans h h'

theorem head (h : m.next s = some m') (h' : Walks s m' last) : Walks s m last :=
  Relation.ReflTransGen.head h h'

theorem single (h : m.next s = some m') : Walks s m m' := Relation.ReflTransGen.single h

theorem after (s : Setting σ) (steps : Nat) (m : Machine σ) : Walks s m (m.after s steps) := by
  induction steps generalizing m with
  | zero => exact refl m
  | succ steps ih =>
    rw [Machine.after]
    cases h : m.next s with
    | none => exact refl m
    | some m' => exact head h (ih m')

/-- What every step keeps is kept by any number of them. -/
theorem invariant {P : Machine σ → Prop}
    (hstep : ∀ m m', P m → m.next s = some m' → P m') (hm : P m) (h : Walks s m m') : P m' := by
  induction h with
  | refl => exact hm
  | tail _ hnext ih => exact hstep _ _ ih hnext

/-- What comes in any number of steps comes in some number of them. -/
theorem exists_steps (h : Walks s m m') : ∃ steps, m.after s steps = m' := by
  induction h using Relation.ReflTransGen.head_induction_on with
  | refl => exact ⟨0, rfl⟩
  | head hstep _ ih =>
    obtain ⟨steps, hsteps⟩ := ih
    exact ⟨steps + 1, by rw [Machine.after, hstep, Option.elim_some, hsteps]⟩

/-- The ways of the machine never part: every point is on the way to the last one. -/
theorem deterministic (h : Walks s m m') (hlast : Walks s m last) (hend : last.next s = none) :
    Walks s m' last := by
  induction h using Relation.ReflTransGen.head_induction_on with
  | refl => exact hlast
  | head hstep _ ih =>
    rcases Relation.ReflTransGen.cases_head hlast with heq | ⟨mid, hmid, hrest⟩
    · rw [heq, hend] at hstep
      cases hstep
    · rw [hmid] at hstep
      cases hstep
      exact ih hrest

/-- The machine ends in one way only. -/
theorem eq_of_end (h : Walks s m m') (hend : m'.next s = none) (hlast : Walks s m last)
    (hlastEnd : last.next s = none) : m' = last := by
  rcases Relation.ReflTransGen.cases_head (h.deterministic hlast hlastEnd) with heq | ⟨_, hstep, -⟩
  · exact heq
  · rw [hend] at hstep
    cases hstep

/-- A step is followed by the steps for its answer; a failure is the end of the way. -/
theorem sequence {frames frames' : List Frame} {focus : α → Focus} {focus' : β → Focus}
    {x : Expansion σ α} {f : α → Expansion σ β} {run : Run σ}
    (hx : Walks s m (.settle frames focus (x run)))
    (hf : ∀ a run', Walks s ⟨focus a, frames, run'⟩ (.settle frames' focus' (f a run'))) :
    Walks s m (.settle frames' focus' ((x >>= f) run)) := by
  cases h : x run with
  | ok a run' =>
    rw [h] at hx
    rw [Expansion.run_bind_of_ok h]
    exact hx.trans (hf a run')
  | error e run' =>
    rw [h] at hx
    rw [Expansion.run_bind_of_error h]
    exact hx

end Walks

/-! ## The machine expands rules -/

/-- The machine expands rules with some levels left as `inner` does. -/
def Follows (s : Setting σ) (levels : Nat) (inner : Text → Expansion σ Text) : Prop :=
  ∀ rule frames run,
    Walks s ⟨.rule levels rule, frames, run⟩ (.settle frames .text (inner rule run))

namespace Follows

variable {s : Setting σ} {levels : Nat} {inner : Text → Expansion σ Text}

theorem runBinding_eq (s : Setting σ) (inner : Text → Expansion σ Text) (b : Binding) :
    runBinding s inner b = inner b.asked >>= fun value => modify (b.finish s value) := by
  obtain ⟨name, rule⟩ := b
  cases rule <;> rfl

/-- A binding is run by expanding what it asks for and finishing it. -/
theorem runBinding (h : Follows s levels inner) (b : Binding) {frame : Frame} {frames : List Frame}
    {focus : Focus} (hf : ∀ t run, (⟨.text t, frame :: frames, run⟩ : Machine σ).next s
      = some ⟨focus, frames, b.finish s t run⟩) (run : Run σ) :
    Walks s ⟨.rule levels b.asked, frame :: frames, run⟩
      (.settle frames (fun _ => focus) (runBinding s inner b run)) := by
  rw [runBinding_eq]
  exact Walks.sequence (h b.asked (frame :: frames) run) fun t run' => Walks.single (hf t run')

theorem runBindings (h : Follows s levels inner) (bindings : List Binding) (r : Reference)
    (frames : List Frame) (run : Run σ) : Walks s ⟨.bindings levels bindings r, frames, run⟩
      (.settle frames (fun _ => .bindings levels [] r) (runBindings s inner bindings run)) := by
  induction bindings generalizing run with
  | nil => exact Walks.refl _
  | cons b more ih =>
    have hb : Walks s ⟨.bindings levels (b :: more) r, frames, run⟩
        (.settle frames (fun _ => .bindings levels more r)
          (TextGrammar.runBinding s inner b run)) :=
      Walks.head rfl (h.runBinding b (fun _ _ => rfl) run)
    exact Walks.sequence hb fun _ run' => ih run'

theorem expandReference (h : Follows s levels inner) (r : Reference) (frames : List Frame)
    (run : Run σ) : Walks s ⟨.bindings levels r.bindings r, frames, run⟩
      (.settle frames .text (expandReference s inner r run)) := by
  refine Walks.sequence (h.runBindings r.bindings r frames run) fun _ run₁ => ?_
  refine Walks.sequence (Walks.single rfl) fun value run₂ => ?_
  refine Walks.sequence (h value _ run₂) fun text run₃ => ?_
  refine Walks.sequence (Walks.single rfl) fun changed run₄ => ?_
  exact h changed frames run₄

theorem expandNode (h : Follows s levels inner) (node : Node) (before : Text) (after : List Node)
    (frames : List Frame) (run : Run σ) :
    Walks s ⟨.parts levels before (node :: after), frames, run⟩
      (.settle frames (fun t => .parts levels (before ++ t) after)
        (expandNode s inner node run)) := by
  cases node with
  | text value => exact Walks.single rfl
  | binding b =>
    have hb : Walks s ⟨.parts levels before (.binding b :: after), frames, run⟩
        (.settle (.parts levels before after :: frames) (fun _ => .text b.raw)
          (TextGrammar.runBinding s inner b run)) :=
      Walks.head rfl (h.runBinding b (fun _ _ => rfl) run)
    exact Walks.sequence hb fun _ run' => Walks.single rfl
  | reference r =>
    refine Walks.trans (Walks.head rfl (h.expandReference r _ run)) ?_
    rw [TextGrammar.expandNode]
    cases TextGrammar.expandReference s inner r run with
    | ok t run' => exact Walks.single rfl
    | error e run' => exact Walks.refl _

theorem expandNodes (h : Follows s levels inner) (nodes : List Node) (before : Text)
    (frames : List Frame) (run : Run σ) : Walks s ⟨.parts levels before nodes, frames, run⟩
      (.settle frames (fun t => .text (before ++ t)) (expandNodes s inner nodes run)) := by
  induction nodes generalizing before run with
  | nil =>
    refine Walks.single ?_
    rw [TextGrammar.expandNodes, Expansion.run_pure, Machine.settle, List.append_nil]
    rfl
  | cons node after ih =>
    refine Walks.sequence (h.expandNode node before after frames run) fun text run' => ?_
    rw [Machine.settle_run_bind_pure]
    have hrest := ih (before ++ text) run'
    simp only [List.append_assoc] at hrest
    exact hrest

end Follows

/-- The machine ends with what a rule expands to, or with the failure. -/
theorem walks_flatten (s : Setting σ) (levels : Nat) : Follows s levels (flatten s levels) := by
  induction levels with
  | zero =>
    intro rule frames run
    refine Walks.single ?_
    cases hr : hasSyntax rule with
    | false =>
      rw [flatten_of_not_hasSyntax s 0 hr, Machine.next_rule_of_not_hasSyntax s 0 frames run hr]
      rfl
    | true => rw [flatten_zero s hr, Machine.next_rule_of_passedOver s frames hr (.inl rfl)]
  | succ levels ih =>
    intro rule frames run
    cases hr : hasSyntax rule with
    | false =>
      refine Walks.single ?_
      rw [flatten_of_not_hasSyntax s _ hr, Machine.next_rule_of_not_hasSyntax s _ frames run hr]
      rfl
    | true =>
      cases ht : run.truncated with
      | true =>
        refine Walks.single ?_
        rw [flatten_succ_of_truncated s levels hr ht]
        exact Machine.next_rule_of_passedOver s frames hr (.inr ht)
      | false =>
        rw [flatten_succ_of_not_truncated s levels hr ht]
        exact Walks.head (Machine.next_rule_of_within s levels frames hr ht)
          (ih.expandNodes (parse rule) [] frames run)

/-- The machine that starts with a rule of a grammar ends with what the rule expands to. -/
theorem Grammar.walks_flatten (g : Grammar) (pick : Pick σ) (selector : σ) (rule : Text) :
    (∃ text run, Walks (g.setting pick) (.start g selector rule) ⟨.text text, [], run⟩ ∧
      g.flatten pick selector rule = g.finished text run) ∨
    (∃ e run, Walks (g.setting pick) (.start g selector rule) ⟨.failure e, [], run⟩ ∧
      g.flatten pick selector rule = g.failed e run) := by
  have hw : Walks (g.setting pick) (.start g selector rule)
      (.settle [] .text (flattenTop (g.setting pick) rule (g.start selector))) :=
    TextGrammar.walks_flatten (g.setting pick) (g.setting pick).levels rule [] (g.start selector)
  cases hx : flattenTop (g.setting pick) rule (g.start selector) with
  | ok text run =>
    rw [hx] at hw
    exact .inl ⟨text, run, hw, Grammar.flatten_of_ok hx⟩
  | error e run =>
    rw [hx] at hw
    exact .inr ⟨e, run, hw, Grammar.flatten_of_error hx⟩

/-- What an expansion leaves is what the last point of the machine holds. -/
theorem Grammar.exists_last_point (g : Grammar) (pick : Pick σ) (selector : σ) (rule : Text) :
    ∃ last, Walks (g.setting pick) (.start g selector rule) last ∧
      last.next (g.setting pick) = none ∧
      (g.flatten pick selector rule).events = last.run.events ∧
      (g.flatten pick selector rule).grammar.rules = last.run.rules := by
  rcases g.walks_flatten pick selector rule with ⟨text, run, hw, ho⟩ | ⟨e, run, hw, ho⟩
  · exact ⟨_, hw, rfl, congrArg Outcome.events ho, congrArg (·.grammar.rules) ho⟩
  · exact ⟨_, hw, rfl, congrArg Outcome.events ho, congrArg (·.grammar.rules) ho⟩

/-- An expansion ends in one way only. -/
theorem Grammar.flatten_of_walks_text {g : Grammar} {pick : Pick σ} {selector : σ} {rule text : Text}
    {run : Run σ}
    (h : Walks (g.setting pick) (.start g selector rule) ⟨.text text, [], run⟩) :
    g.flatten pick selector rule = g.finished text run := by
  rcases g.walks_flatten pick selector rule with ⟨text', run', hw, ho⟩ | ⟨e, run', hw, ho⟩
  · cases (h.eq_of_end rfl hw rfl)
    exact ho
  · cases (h.eq_of_end rfl hw rfl)

theorem Grammar.flatten_of_walks_failure {g : Grammar} {pick : Pick σ} {selector : σ} {rule : Text}
    {e : DepthExceeded} {run : Run σ}
    (h : Walks (g.setting pick) (.start g selector rule) ⟨.failure e, [], run⟩) :
    g.flatten pick selector rule = g.failed e run := by
  rcases g.walks_flatten pick selector rule with ⟨text, run', hw, ho⟩ | ⟨e', run', hw, ho⟩
  · cases (h.eq_of_end rfl hw rfl)
  · cases (h.eq_of_end rfl hw rfl)
    exact ho

/-! ## What a step changes -/

namespace Machine

variable {s : Setting σ} {m m' : Machine σ}

/-- Where a rule lies too deep a lenient step gives the rule back as it is. -/
theorem next_of_atLimit {rule : Text} (hs : s.strict = false) (h : m.AtLimit rule) :
    m.next s = some ⟨.text rule, m.frames,
      { m.run.record (.tooDeep s.maxDepth rule) with truncated := true }⟩ := by
  obtain ⟨focus, frames, run⟩ := m
  obtain ⟨rfl, hr, ht⟩ := h
  rw [next_rule_of_passedOver s frames hr (.inl rfl), tooDeep_of_not_truncated hs rule ht]
  rfl

/-- After the limit is passed a lenient step gives every rule back as it is. -/
theorem next_rule_of_truncated {levels : Nat} {rule : Text} {frames : List Frame} {run : Run σ}
    (hs : s.strict = false) (ht : run.truncated = true) :
    (⟨.rule levels rule, frames, run⟩ : Machine σ).next s = some ⟨.text rule, frames, run⟩ := by
  cases hr : hasSyntax rule with
  | false => exact next_rule_of_not_hasSyntax s levels frames run hr
  | true =>
    rw [next_rule_of_passedOver s frames hr (.inr ht), tooDeep_of_truncated hs rule ht, settle]

/-- The name and the value that the next step binds: a value is found for a binding with a rule. -/
def write? : Machine σ → Option (Text × Text)
  | ⟨.text value, .outside b :: _, _⟩ => b.write? value
  | ⟨.text value, .binding _ b _ _ :: _, _⟩ => b.write? value
  | _ => none

/-- The candidates that the next step offers to the selector: the bindings of a reference are run,
and its symbol is no variable but has a rule. -/
def offer? : Machine σ → Option Offer
  | ⟨.bindings _ [] r, _, run⟩ =>
    if (run.bound.get? r.symbol).isSome then none
    else (run.rules.get? r.symbol).map fun candidates => ⟨r.symbol, candidates⟩
  | _ => none

/-- What a step may leave of the run. -/
inductive Change (s : Setting σ) (m : Machine σ) : Run σ → Prop where
  | same : Change s m m.run
  | limit {rule : Text} (hs : s.strict = false) (h : m.AtLimit rule) :
    Change s m { m.run.record (.tooDeep s.maxDepth rule) with truncated := true }
  | choose {symbol : Text} {candidates : List Text} (h : m.offer? = some ⟨symbol, candidates⟩) :
    Change s m (m.run.choose s.pick symbol candidates).2
  | bind {name value : Text} (h : m.write? = some (name, value)) :
    Change s m (m.run.bind s.keepsBindings name value)
  | note (reference : Text) (names : List Text) :
    Change s m (m.run.noted (s.notes reference names))

theorem change_of_next_rule {levels : Nat} {rule : Text} {frames : List Frame} {run : Run σ}
    (h : (⟨.rule levels rule, frames, run⟩ : Machine σ).next s = some m') :
    Change s ⟨.rule levels rule, frames, run⟩ m'.run := by
  rcases next_rule_cases h with ⟨-, rfl⟩ | ⟨-, -, fewer, -, rfl⟩ | ⟨hr, hover, rfl⟩
  · exact .same
  · exact .same
  · cases hs : s.strict with
    | true =>
      rw [tooDeep_of_strict hs]
      exact .same
    | false =>
      cases ht : run.truncated with
      | true =>
        rw [tooDeep_of_truncated hs rule ht]
        exact .same
      | false =>
        obtain rfl : levels = 0 := hover.resolve_right (by simp [ht])
        rw [tooDeep_of_not_truncated hs rule ht]
        exact .limit hs ⟨rfl, hr, ht⟩

theorem change_of_next_bindings {levels : Nat} {bindings : List Binding} {r : Reference}
    {frames : List Frame} {run : Run σ}
    (h : (⟨.bindings levels bindings r, frames, run⟩ : Machine σ).next s = some m') :
    Change s ⟨.bindings levels bindings r, frames, run⟩ m'.run := by
  cases bindings with
  | cons b more =>
    cases h
    exact .same
  | nil =>
    rw [next] at h
    cases hb : run.bound.get? r.symbol with
    | some value =>
      rw [resolve_of_bound hb] at h
      cases h
      exact .same
    | none =>
      cases hc : run.rules.get? r.symbol with
      | none =>
        rw [resolve_of_unknown hb hc] at h
        cases h
        exact .same
      | some candidates =>
        rw [resolve_of_candidates hb hc] at h
        cases h
        exact .choose (by simp [offer?, hb, hc])

theorem change_of_next_text {t : Text} {frames : List Frame} {run : Run σ}
    (h : (⟨.text t, frames, run⟩ : Machine σ).next s = some m') :
    Change s ⟨.text t, frames, run⟩ m'.run := by
  -- A binding drops its value when it has no rule, and else binds it.
  have hfinish : ∀ b : Binding, write? ⟨.text t, frames, run⟩ = b.write? t →
      Change s ⟨.text t, frames, run⟩ (b.finish s t run) := by
    intro b hw
    by_cases hb : b.rule = none
    · rw [b.finish_of_bare hb]
      exact .same
    · rw [b.finish_of_rule hb]
      exact .bind (hw.trans (b.write?_of_rule hb t))
  cases frames with
  | nil => cases h
  | cons f frames =>
    cases f with
    | parts levels before after =>
      cases h
      exact .same
    | outside b =>
      cases h
      exact hfinish b rfl
    | binding levels b more r =>
      cases h
      exact hfinish b rfl
    | symbol levels r =>
      rw [next_symbol] at h
      cases h
      exact .note r.raw r.modifiers

/-- A step changes the run in one of five ways. -/
theorem change_of_next (h : m.next s = some m') : Change s m m'.run := by
  obtain ⟨focus, frames, run⟩ := m
  cases focus with
  | rule levels rule => exact change_of_next_rule h
  | parts levels before nodes =>
    rcases nodes with _ | ⟨value | b | r, after⟩
    all_goals
      cases h
      exact .same
  | bindings levels bindings r => exact change_of_next_bindings h
  | text t => exact change_of_next_text h
  | failure e => cases h

/-- A step that does not pass the limit gives no warning of it. -/
theorem limit_of_next (hl : ∀ rule, ¬ m.AtLimit rule) (h : m.next s = some m') :
    m'.run.truncated = m.run.truncated ∧ m'.run.depthWarnings = m.run.depthWarnings := by
  have hchange := change_of_next h
  generalize m'.run = last at hchange
  cases hchange with
  | same => exact ⟨rfl, rfl⟩
  | @limit rule _ hrule => exact absurd hrule (hl rule)
  | choose _ => exact ⟨rfl, rfl⟩
  | bind _ => exact ⟨rfl, rfl⟩
  | note reference names => exact ⟨rfl, s.depthWarnings_noted reference names m.run⟩

theorem not_atLimit_of_truncated (h : m.run.truncated = true) (rule : Text) : ¬ m.AtLimit rule := by
  rintro ⟨-, -, ht⟩
  rw [h] at ht
  cases ht

/-- Once the limit is passed it stays passed, and there is no other warning. -/
theorem limit_of_walks (ht : m.run.truncated = true) (h : Walks s m m') :
    m'.run.truncated = true ∧ m'.run.depthWarnings = m.run.depthWarnings := by
  induction h with
  | refl => exact ⟨ht, rfl⟩
  | tail _ hstep ih =>
    obtain ⟨ht', hw⟩ := ih
    obtain ⟨ht'', hw'⟩ := limit_of_next (not_atLimit_of_truncated ht') hstep
    exact ⟨ht''.trans ht', hw'.trans hw⟩

/-- As long as the limit is not passed there is no warning. -/
theorem depthWarnings_of_walks (h : Walks s m m')
    (hl : ∀ mid rule, Walks s m mid → ¬ mid.AtLimit rule) :
    m'.run.depthWarnings = m.run.depthWarnings := by
  induction h with
  | refl => rfl
  | @tail mid _ hwalk hstep ih =>
    exact (limit_of_next (fun rule => hl mid rule hwalk) hstep).2.trans ih

end Machine

namespace Grammar

variable {g : Grammar} {pick : Pick σ} {selector : σ} {rule : Text}

/-- A lenient expansion ends with a text, and the machine ends with it. -/
theorem exists_last (hg : g.strict = false) (pick : Pick σ) (selector : σ) (rule : Text) :
    ∃ text run, Walks (g.setting pick) (.start g selector rule) ⟨.text text, [], run⟩ ∧
      g.flatten pick selector rule = g.finished text run := by
  rcases g.walks_flatten pick selector rule with h | ⟨e, run, -, hf⟩
  · exact h
  · obtain ⟨text, ht⟩ := exists_result_of_lenient hg pick selector rule
    rw [hf] at ht
    cases ht

/-- A lenient expansion passes the limit when a point of it does. -/
theorem passesLimit_iff_atLimit (hg : g.strict = false) :
    (g.flatten pick selector rule).PassesLimit ↔
      ∃ m limit, Walks (g.setting pick) (.start g selector rule) m ∧ m.AtLimit limit := by
  obtain ⟨text, last, hlast, hf⟩ := exists_last hg pick selector rule
  have hpass : (g.flatten pick selector rule).PassesLimit ↔ last.depthWarnings ≠ [] := by
    rw [hf, Outcome.PassesLimit, depthWarnings_finished, ne_eq, List.reverse_eq_nil_iff]
    exact or_iff_right fun ⟨e, he⟩ => by cases he
  rw [hpass]
  constructor
  · intro hw
    refine Classical.byContradiction fun hnone => ?_
    have hl : ∀ m limit, Walks (g.setting pick) (.start g selector rule) m → ¬ m.AtLimit limit :=
      fun m limit hm ha => hnone ⟨m, limit, hm, ha⟩
    exact hw (Machine.depthWarnings_of_walks hlast hl)
  · rintro ⟨m, limit, hm, ha⟩ hw
    have hstep := Machine.next_of_atLimit (s := g.setting pick) hg ha
    have hrest := (hm.trans (.single hstep)).deterministic hlast rfl
    rw [(Machine.limit_of_walks rfl hrest).2] at hw
    cases hw

end Grammar

end TextGrammar
