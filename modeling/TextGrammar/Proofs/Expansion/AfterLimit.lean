import TextGrammar.Proofs.Expansion.Machine
import TextGrammar.Select.MersenneTwister
import TextGrammar.Select.Selector

/-!
# After the depth limit is passed

A lenient expansion that passes its limit leaves rules as they are from then on, but what is pending
in the rules around is still gone through: bindings bind, symbols are looked up and modifiers are
applied. So the expansion stops there exactly when everything pending is idle.

## Main definitions

* `Run.Untouched` — the selector is not asked, and no variable and no rule is written.
* `Machine.Stops` — from a point on the run is untouched and references come out as written.
* `Node.Idle`, `Frame.Idle` — what has nothing to ask for, nothing to bind and nothing to change.

## Main results

* `Machine.Idle.next` — a step from an idle point leads to an idle one and leaves the run untouched.
* `Machine.Stops.frames` — where an expansion stops, everything pending is idle.
* `Grammar.stops_iff_idle` — when an expansion stops where it passes its limit.
-/

namespace TextGrammar

variable {σ : Type}

/-! ## Stopping -/

/-- The selector was asked or a value was bound. -/
def Event.acts : Event → Bool
  | picked .. => true
  | bound .. => true
  | _ => false

/-- The questions to the selector and the bindings so far, the latest first. -/
def Run.acts (run : Run σ) : List Event := run.trace.filter Event.acts

/-- From `run` to `last` the selector is not asked, and no variable and no rule is written. -/
structure Run.Untouched (run last : Run σ) : Prop where
  /-- No question and no binding. -/
  acts : last.acts = run.acts
  selector : last.selector = run.selector
  bound : last.bound = run.bound
  rules : last.rules = run.rules

namespace Run.Untouched

variable {run mid last : Run σ}

theorem refl (run : Run σ) : run.Untouched run := ⟨rfl, rfl, rfl, rfl⟩

theorem trans (h : run.Untouched mid) (h' : mid.Untouched last) : run.Untouched last :=
  ⟨h'.acts.trans h.acts, h'.selector.trans h.selector, h'.bound.trans h.bound,
    h'.rules.trans h.rules⟩

end Run.Untouched

theorem Run.acts_noted (run : Run σ) (s : Setting σ) (reference : Text) (names : List Text) :
    (run.noted (s.notes reference names)).acts = run.acts := by
  have hnone : (s.notes reference names).filter Event.acts = [] := by
    refine List.filter_eq_nil_iff.2 fun e he => ?_
    obtain ⟨name, rfl⟩ := s.eq_of_mem_notes he
    exact Bool.false_ne_true
  rw [Run.acts, Run.noted, List.filter_append, hnone]
  rfl

/-- Notes of unknown modifiers leave the run untouched. -/
theorem Run.untouched_noted (run : Run σ) (s : Setting σ) (reference : Text) (names : List Text) :
    run.Untouched (run.noted (s.notes reference names)) :=
  ⟨run.acts_noted s reference names, rfl, rfl, rfl⟩

/-- From the point `m` on the run is untouched, and every reference that is reached comes out as it
is written. -/
structure Machine.Stops (m : Machine σ) (s : Setting σ) : Prop where
  /-- Nothing is asked for and nothing is bound. -/
  untouched : ∀ ⦃m'⦄, Walks s m m' → m.run.Untouched m'.run
  /-- References that are not yet reached. -/
  asWritten : ∀ ⦃levels before r after frames run⦄,
    Walks s m ⟨.parts levels before (.reference r :: after), frames, run⟩ →
    ∃ last, expandReference s (flatten s levels) r run = .ok r.raw last

theorem Machine.Stops.next {m m' : Machine σ} {s : Setting σ} (h : m.Stops s)
    (hstep : m.next s = some m') : m'.Stops s where
  untouched := by
    intro last hw
    have hfirst := h.untouched (.single hstep)
    have hall := h.untouched (.head hstep hw)
    exact ⟨hall.acts.trans hfirst.acts.symm, hall.selector.trans hfirst.selector.symm,
      hall.bound.trans hfirst.bound.symm, hall.rules.trans hfirst.rules.symm⟩
  asWritten := by
    intro levels before r after frames run hw
    exact h.asWritten (.head hstep hw)

/-! ## Idle parts -/

/-- The text that a symbol stands for when the selector is not asked. -/
def Run.known (run : Run σ) (symbol : Text) : Text := (run.bound.get? symbol).getD symbol

/-- A symbol is looked up without asking the selector. -/
def Run.Knows (run : Run σ) (symbol : Text) : Prop :=
  run.bound.get? symbol ≠ none ∨ run.rules.get? symbol = none

instance (run : Run σ) (symbol : Text) : Decidable (run.Knows symbol) :=
  inferInstanceAs (Decidable (_ ∨ _))

/-- Bindings that write nothing: they have no rules. -/
def Bare (bindings : List Binding) : Prop := ∀ b ∈ bindings, b.rule = none

instance (bindings : List Binding) : Decidable (Bare bindings) :=
  inferInstanceAs (Decidable (∀ _ ∈ _, _))

/-- A reference that binds nothing, asks for nothing, and is what its symbol and its modifiers
give. -/
def Reference.Idle (r : Reference) (s : Setting σ) (run : Run σ) : Prop :=
  Bare r.bindings ∧ run.Knows r.symbol ∧ s.modified r.modifiers (run.known r.symbol) = r.raw

instance (r : Reference) (s : Setting σ) (run : Run σ) : Decidable (r.Idle s run) :=
  inferInstanceAs (Decidable (_ ∧ _ ∧ _))

/-- A part of a rule that does nothing and comes out as it is written. -/
def Node.Idle : Node → Setting σ → Run σ → Prop
  | .text _, _, _ => True
  | .binding b, _, _ => b.rule = none
  | .reference r, s, run => r.Idle s run

instance (s : Setting σ) (run : Run σ) : (node : Node) → Decidable (node.Idle s run)
  | .text _ => inferInstanceAs (Decidable True)
  | .binding b => inferInstanceAs (Decidable (b.rule = none))
  | .reference r => inferInstanceAs (Decidable (r.Idle s run))

/-- What is pending does nothing. The reference of a binding that is being run is reached already,
so nothing is asked of how it comes out. -/
def Frame.Idle : Frame → Setting σ → Run σ → Prop
  | .parts _ _ after, s, run => ∀ node ∈ after, node.Idle s run
  | .outside b, _, _ => b.rule = none
  | .binding _ b more r, _, run => b.rule = none ∧ Bare more ∧ run.Knows r.symbol
  | .symbol _ _, _, _ => True

instance (s : Setting σ) (run : Run σ) : (f : Frame) → Decidable (f.Idle s run)
  | .parts _ _ after => inferInstanceAs (Decidable (∀ node ∈ after, node.Idle s run))
  | .outside b => inferInstanceAs (Decidable (b.rule = none))
  | .binding _ b more r =>
    inferInstanceAs (Decidable (b.rule = none ∧ Bare more ∧ run.Knows r.symbol))
  | .symbol _ _ => inferInstanceAs (Decidable True)

/-- What is worked on does nothing. -/
def Focus.Idle : Focus → Setting σ → Run σ → Prop
  | .parts _ _ nodes, s, run => ∀ node ∈ nodes, node.Idle s run
  | .bindings _ more r, _, run => Bare more ∧ run.Knows r.symbol
  | _, _, _ => True

/-- The limit is passed, and neither what is worked on nor what is pending does anything. -/
structure Machine.Idle (m : Machine σ) (s : Setting σ) : Prop where
  truncated : m.run.truncated = true
  focus : m.focus.Idle s m.run
  frames : ∀ f ∈ m.frames, f.Idle s m.run

namespace Run.Untouched

variable {s : Setting σ} {run last : Run σ}

theorem known_eq (h : run.Untouched last) (symbol : Text) :
    last.known symbol = run.known symbol := by
  rw [known, known, h.bound]

theorem knows_iff (h : run.Untouched last) (symbol : Text) :
    last.Knows symbol ↔ run.Knows symbol := by
  rw [Knows, Knows, h.bound, h.rules]

/-- A part stays idle as long as the run is untouched. -/
theorem node_idle_iff (h : run.Untouched last) (node : Node) :
    node.Idle s last ↔ node.Idle s run := by
  cases node with
  | text value => exact Iff.rfl
  | binding b => exact Iff.rfl
  | reference r =>
    show r.Idle s last ↔ r.Idle s run
    rw [Reference.Idle, Reference.Idle, h.known_eq, h.knows_iff]

/-- What is pending stays idle as long as the run is untouched. -/
theorem frame_idle_iff (h : run.Untouched last) (f : Frame) : f.Idle s last ↔ f.Idle s run := by
  cases f with
  | parts levels before after =>
    exact forall_congr' fun node => imp_congr_right fun _ => h.node_idle_iff node
  | outside b => exact Iff.rfl
  | binding levels b more r =>
    show _ ∧ _ ∧ last.Knows r.symbol ↔ _ ∧ _ ∧ run.Knows r.symbol
    rw [h.knows_iff]
  | symbol levels r => exact Iff.rfl

end Run.Untouched

/-! ## Steps after the limit -/

section Steps

variable {s : Setting σ} {run : Run σ} (levels : Nat)

theorem resolve_of_knows {symbol : Text} (h : run.Knows symbol) :
    resolve s symbol run = .ok (run.known symbol) run := by
  unfold Run.known
  cases hb : run.bound.get? symbol with
  | some value => exact resolve_of_bound hb
  | none =>
    have hr : run.rules.get? symbol = none := h.resolve_left fun hne => hne hb
    exact resolve_of_unknown hb hr

/-- Bindings without rules leave the run as it is. -/
theorem runBindings_of_bare (hs : s.strict = false) (ht : run.truncated = true)
    {bindings : List Binding} (hb : Bare bindings) :
    runBindings s (flatten s levels) bindings run = .ok () run := by
  induction bindings with
  | nil => rfl
  | cons b more ih =>
    have hfirst : runBinding s (flatten s levels) b run = .ok () run := by
      rw [runBinding, hb b List.mem_cons_self]
      exact Expansion.run_bind_of_ok (flatten_of_truncated levels hs ht b.asReference.raw) _
    rw [runBindings, Expansion.run_bind_of_ok hfirst]
    exact ih fun b' h => hb b' (List.mem_cons_of_mem b h)

/-- A reference that binds nothing and asks for nothing comes out as what its modifiers make of its
symbol. -/
theorem expandReference_of_bare (hs : s.strict = false) (ht : run.truncated = true) {r : Reference}
    (hb : Bare r.bindings) (hk : run.Knows r.symbol) :
    expandReference s (flatten s levels) r run
      = .ok (s.modified r.modifiers (run.known r.symbol))
          (run.noted (s.notes r.raw r.modifiers)) := by
  have hm := applyModifiers_run s r.raw r.modifiers (run.known r.symbol) run
  rw [expandReference, Expansion.run_bind_of_ok (runBindings_of_bare levels hs ht hb),
    Expansion.run_bind_of_ok (resolve_of_knows hk),
    Expansion.run_bind_of_ok (flatten_of_truncated levels hs ht _), Expansion.run_bind_of_ok hm]
  exact flatten_of_truncated levels hs (show (run.noted _).truncated = true from ht) _

/-- An idle reference comes out as it is written. -/
theorem Reference.Idle.expandReference (hs : s.strict = false) (ht : run.truncated = true)
    {r : Reference} (h : r.Idle s run) : expandReference s (flatten s levels) r run
      = .ok r.raw (run.noted (s.notes r.raw r.modifiers)) := by
  obtain ⟨hb, hk, hraw⟩ := h
  rw [expandReference_of_bare levels hs ht hb hk, hraw]

end Steps

/-! ## Idle points stay idle -/

namespace Machine

variable {s : Setting σ} {m m' : Machine σ}

theorem next_bindings_nil {levels : Nat} {r : Reference} {frames : List Frame} {run : Run σ}
    (hk : run.Knows r.symbol) : (⟨.bindings levels [] r, frames, run⟩ : Machine σ).next s
      = some ⟨.rule levels (run.known r.symbol), .symbol levels r :: frames, run⟩ := by
  rw [next, resolve_of_knows hk, settle]

/-- A step through the parts of a rule goes on with an idle part and leaves the rest pending. -/
theorem Idle.next_parts {levels : Nat} {before : Text} {nodes : List Node} {frames : List Frame}
    {run : Run σ} (hm : Idle ⟨.parts levels before nodes, frames, run⟩ s)
    (h : (⟨.parts levels before nodes, frames, run⟩ : Machine σ).next s = some m') :
    m'.Idle s ∧ run.Untouched m'.run := by
  obtain ⟨ht, hfocus, hframes⟩ := hm
  cases nodes with
  | nil =>
    cases h
    exact ⟨⟨ht, trivial, hframes⟩, .refl run⟩
  | cons node after =>
    obtain ⟨hnode, hafter⟩ := List.forall_mem_cons.1 hfocus
    have hparts : ∀ f ∈ Frame.parts levels before after :: frames, f.Idle s run :=
      List.forall_mem_cons.2 ⟨hafter, hframes⟩
    cases node with
    | text value =>
      cases h
      exact ⟨⟨ht, hafter, hframes⟩, .refl run⟩
    | binding b =>
      cases h
      exact ⟨⟨ht, trivial, List.forall_mem_cons.2 ⟨hnode, hparts⟩⟩, .refl run⟩
    | reference r =>
      obtain ⟨hb, hk, -⟩ := hnode
      cases h
      exact ⟨⟨ht, ⟨hb, hk⟩, hparts⟩, .refl run⟩

/-- A step through the bindings of a reference leaves a binding without a rule pending, or the
modifiers. -/
theorem Idle.next_bindings {levels : Nat} {bindings : List Binding} {r : Reference}
    {frames : List Frame} {run : Run σ} (hm : Idle ⟨.bindings levels bindings r, frames, run⟩ s)
    (h : (⟨.bindings levels bindings r, frames, run⟩ : Machine σ).next s = some m') :
    m'.Idle s ∧ run.Untouched m'.run := by
  obtain ⟨ht, ⟨hb, hk⟩, hframes⟩ := hm
  cases bindings with
  | cons b more =>
    obtain ⟨hfirst, hmore⟩ := List.forall_mem_cons.1 hb
    have hframe : (Frame.binding levels b more r).Idle s run := ⟨hfirst, hmore, hk⟩
    cases h
    exact ⟨⟨ht, trivial, List.forall_mem_cons.2 ⟨hframe, hframes⟩⟩, .refl run⟩
  | nil =>
    rw [next_bindings_nil hk] at h
    cases h
    exact ⟨⟨ht, trivial, List.forall_mem_cons.2 ⟨trivial, hframes⟩⟩, .refl run⟩

/-- A text that is found goes to an idle frame. -/
theorem Idle.next_text {t : Text} {frames : List Frame} {run : Run σ}
    (hm : Idle ⟨.text t, frames, run⟩ s)
    (h : (⟨.text t, frames, run⟩ : Machine σ).next s = some m') :
    m'.Idle s ∧ run.Untouched m'.run := by
  obtain ⟨ht, -, hframes⟩ := hm
  cases frames with
  | nil => cases h
  | cons f frames =>
    obtain ⟨hf, hframes⟩ := List.forall_mem_cons.1 hframes
    cases f with
    | parts levels before after =>
      cases h
      exact ⟨⟨ht, hf, hframes⟩, .refl run⟩
    | outside b =>
      have hb : b.rule = none := hf
      rw [next, b.finish_of_bare hb] at h
      cases h
      exact ⟨⟨ht, trivial, hframes⟩, .refl run⟩
    | binding levels b more r =>
      obtain ⟨hb, hmore, hk⟩ := hf
      rw [next, b.finish_of_bare hb] at h
      cases h
      exact ⟨⟨ht, ⟨hmore, hk⟩, hframes⟩, .refl run⟩
    | symbol levels r =>
      rw [next_symbol] at h
      cases h
      have hu := run.untouched_noted s r.raw r.modifiers
      exact ⟨⟨ht, trivial, fun f h' => (hu.frame_idle_iff f).2 (hframes f h')⟩, hu⟩

/-- A step from an idle point leads to an idle one and leaves the run untouched. -/
theorem Idle.next (hs : s.strict = false) (hm : m.Idle s) (h : m.next s = some m') :
    m'.Idle s ∧ m.run.Untouched m'.run := by
  obtain ⟨focus, frames, run⟩ := m
  cases focus with
  | rule levels rule =>
    obtain ⟨ht, -, hframes⟩ := hm
    rw [next_rule_of_truncated hs ht] at h
    cases h
    exact ⟨⟨ht, trivial, hframes⟩, .refl run⟩
  | parts levels before nodes => exact hm.next_parts h
  | bindings levels bindings r => exact hm.next_bindings h
  | text t => exact hm.next_text h
  | failure e => cases h

theorem Idle.walks (hs : s.strict = false) (hm : m.Idle s) (h : Walks s m m') :
    m'.Idle s ∧ m.run.Untouched m'.run := by
  induction h with
  | refl => exact ⟨hm, .refl m.run⟩
  | tail _ hstep ih =>
    obtain ⟨hmid, hu⟩ := ih
    obtain ⟨hlast, hu'⟩ := hmid.next hs hstep
    exact ⟨hlast, hu.trans hu'⟩

/-- From an idle point on nothing is done. -/
theorem Idle.stops (hs : s.strict = false) (hm : m.Idle s) : m.Stops s where
  untouched := by
    intro m' hw
    exact (hm.walks hs hw).2
  asWritten := by
    intro levels before r after frames run hw
    obtain ⟨ht, hfocus, -⟩ := (hm.walks hs hw).1
    have hr : r.Idle s run := hfocus (.reference r) List.mem_cons_self
    exact ⟨_, hr.expandReference levels hs ht⟩

/-! ## Only idle points stop -/

/-- Where an expansion stops a binding writes nothing. -/
theorem Stops.finish {frame : Frame} {frames : List Frame} {focus : Focus} {t : Text} {run : Run σ}
    {b : Binding} (h : Stops ⟨.text t, frame :: frames, run⟩ s)
    (hnext : (⟨.text t, frame :: frames, run⟩ : Machine σ).next s
      = some ⟨focus, frames, b.finish s t run⟩) :
    b.rule = none ∧ Stops ⟨focus, frames, run⟩ s := by
  have hb : b.rule = none := by
    refine Classical.byContradiction fun hne => ?_
    have hu : (b.finish s t run).acts = run.acts := (h.untouched (.single hnext)).acts
    rw [b.finish_of_rule hne] at hu
    exact List.cons_ne_self _ _ hu
  rw [b.finish_of_bare hb] at hnext
  exact ⟨hb, h.next hnext⟩

/-- Where an expansion stops bindings have no rules, and the symbol behind them is looked up without
asking the selector. -/
theorem Stops.bindings (hs : s.strict = false) {levels : Nat} {bindings : List Binding}
    {r : Reference} {frames : List Frame} {run : Run σ} (ht : run.truncated = true)
    (h : Stops ⟨.bindings levels bindings r, frames, run⟩ s) :
    (Bare bindings ∧ run.Knows r.symbol) ∧ ∃ t last, run.Untouched last ∧ last.truncated = true ∧
      Stops ⟨.text t, frames, last⟩ s := by
  induction bindings with
  | nil =>
    have hk : run.Knows r.symbol := by
      refine Classical.byContradiction fun hne => ?_
      have hb : run.bound.get? r.symbol = none :=
        Classical.byContradiction fun hbound => hne (.inl hbound)
      obtain ⟨candidates, hc⟩ := Option.ne_none_iff_exists'.1 fun hr => hne (.inr hr)
      have hask := h.untouched (.single (by rw [Machine.next, resolve_of_candidates hb hc, settle]))
      exact List.cons_ne_self _ _ hask.acts
    have hlook := (h.next (next_bindings_nil hk)).next (next_rule_of_truncated hs ht)
    have hchange := hlook.next (next_symbol s levels r _ frames run)
    exact ⟨⟨fun b hb => (List.not_mem_nil hb).elim, hk⟩, _, _,
      run.untouched_noted s r.raw r.modifiers, ht, hchange.next (next_rule_of_truncated hs ht)⟩
  | cons b more ih =>
    have hrule : Stops ⟨.rule levels b.asked, .binding levels b more r :: frames, run⟩ s :=
      h.next rfl
    obtain ⟨hb, hmore⟩ := (hrule.next (next_rule_of_truncated hs ht)).finish rfl
    obtain ⟨⟨hbare, hk⟩, hlast⟩ := ih hmore
    exact ⟨⟨List.forall_mem_cons.2 ⟨hb, hbare⟩, hk⟩, hlast⟩

/-- Where an expansion stops the parts that are still to come are idle. -/
theorem Stops.parts (hs : s.strict = false) {levels : Nat} {before : Text} {nodes : List Node}
    {frames : List Frame} {run : Run σ} (ht : run.truncated = true)
    (h : Stops ⟨.parts levels before nodes, frames, run⟩ s) :
    (∀ node ∈ nodes, node.Idle s run) ∧ ∃ t last, run.Untouched last ∧ last.truncated = true ∧
      Stops ⟨.text t, frames, last⟩ s := by
  induction nodes generalizing before run with
  | nil =>
    have hlast : Stops ⟨.text before, frames, run⟩ s := h.next rfl
    exact ⟨fun node hn => (List.not_mem_nil hn).elim, before, run, .refl run, ht, hlast⟩
  | cons node after ih =>
    -- The part is idle, and the parts behind it follow in an untouched run.
    have hnode : node.Idle s run ∧ ∃ before' mid, run.Untouched mid ∧ mid.truncated = true ∧
        Stops ⟨.parts levels before' after, frames, mid⟩ s := by
      cases node with
      | text value => exact ⟨trivial, _, run, .refl run, ht, h.next rfl⟩
      | binding b =>
        have hrule : Stops ⟨.rule levels b.asked,
            .outside b :: .parts levels before after :: frames, run⟩ s := h.next rfl
        obtain ⟨hb, htext⟩ := (hrule.next (next_rule_of_truncated hs ht)).finish rfl
        exact ⟨hb, _, run, .refl run, ht, htext.next rfl⟩
      | reference r =>
        have hbindings : Stops ⟨.bindings levels r.bindings r,
            .parts levels before after :: frames, run⟩ s := h.next rfl
        obtain ⟨⟨hb, hk⟩, t, mid, hu, ht', hmid⟩ := hbindings.bindings hs ht
        obtain ⟨last, hlast⟩ := h.asWritten (.refl _)
        rw [expandReference_of_bare levels hs ht hb hk] at hlast
        have hraw : s.modified r.modifiers (run.known r.symbol) = r.raw :=
          (EStateM.Result.ok.inj hlast).1
        exact ⟨⟨hb, hk, hraw⟩, _, mid, hu, ht', hmid.next rfl⟩
    obtain ⟨hidle, before', mid, hu, ht', hmid⟩ := hnode
    obtain ⟨hafter, t, last, hu', hlast⟩ := ih ht' hmid
    have hidle' : ∀ node' ∈ after, node'.Idle s run :=
      fun node' hn => (hu.node_idle_iff node').1 (hafter node' hn)
    exact ⟨List.forall_mem_cons.2 ⟨hidle, hidle'⟩, t, last, hu.trans hu', hlast⟩

/-- Where an expansion stops everything pending is idle. -/
theorem Stops.frames (hs : s.strict = false) {t : Text} {frames : List Frame} {run : Run σ}
    (ht : run.truncated = true) (h : Stops ⟨.text t, frames, run⟩ s) :
    ∀ f ∈ frames, f.Idle s run := by
  induction frames generalizing t run with
  | nil => exact fun f hf => (List.not_mem_nil hf).elim
  | cons f frames ih =>
    -- The frame is idle, and the frames behind it get a text in an untouched run.
    have hframe : f.Idle s run ∧ ∃ t' last, run.Untouched last ∧ last.truncated = true ∧
        Stops ⟨.text t', frames, last⟩ s := by
      cases f with
      | parts levels before after =>
        have hparts : Stops ⟨.parts levels (before ++ t) after, frames, run⟩ s := h.next rfl
        exact hparts.parts hs ht
      | outside b =>
        obtain ⟨hb, htext⟩ := h.finish (b := b) rfl
        exact ⟨hb, _, run, .refl run, ht, htext⟩
      | binding levels b more r =>
        obtain ⟨hb, hmore⟩ := h.finish (b := b) rfl
        obtain ⟨hidle, hlast⟩ := hmore.bindings hs ht
        exact ⟨⟨hb, hidle⟩, hlast⟩
      | symbol levels r =>
        have hchange := h.next (next_symbol s levels r t frames run)
        have hu := run.untouched_noted s r.raw r.modifiers
        exact ⟨trivial, _, _, hu, ht, hchange.next (next_rule_of_truncated hs ht)⟩
    obtain ⟨hidle, t', last, hu, ht', hlast⟩ := hframe
    have hidle' : ∀ f' ∈ frames, f'.Idle s run :=
      fun f' hf => (hu.frame_idle_iff f').1 (ih ht' hlast f' hf)
    exact List.forall_mem_cons.2 ⟨hidle, hidle'⟩

/-- An expansion whose limit is passed stops when everything pending is idle, and only then. -/
theorem stops_iff_frames (hs : s.strict = false) {t : Text} {frames : List Frame} {run : Run σ}
    (ht : run.truncated = true) :
    Stops ⟨.text t, frames, run⟩ s ↔ ∀ f ∈ frames, f.Idle s run := by
  constructor
  · intro h
    exact h.frames hs ht
  · intro h
    have hidle : Idle ⟨.text t, frames, run⟩ s := ⟨ht, trivial, h⟩
    exact hidle.stops hs

end Machine

namespace Grammar

/-- A lenient expansion that comes to a point `m` where a rule lies too deep warns of the rule and
ends with a text. After the warning it never asks the selector again, writes no variable and no rule
and leaves the references to come as they are written exactly when everything that is pending at `m`
is idle. -/
theorem stops_iff_idle (g : Grammar) (pick : Pick σ) (selector : σ) (rule : Text)
    (hg : g.strict = false) {m : Machine σ} {deep : Text}
    (hm : Walks (g.setting pick) (.start g selector rule) m) (hl : m.AtLimit deep) :
    ∃ m' text last, m.next (g.setting pick) = some m' ∧
      m'.run.trace = .tooDeep g.maxDepth deep :: m.run.trace ∧
      Walks (g.setting pick) m' ⟨.text text, [], last⟩ ∧
      g.flatten pick selector rule = g.finished text last ∧
      (m'.Stops (g.setting pick) ↔ ∀ f ∈ m.frames, f.Idle (g.setting pick) m.run) := by
  obtain ⟨text, last, hlast, hf⟩ := exists_last hg pick selector rule
  have hstep := Machine.next_of_atLimit (s := g.setting pick) hg hl
  have hrest := (hm.trans (.single hstep)).deterministic hlast rfl
  have hu : m.run.Untouched { m.run.record (.tooDeep g.maxDepth deep) with truncated := true } :=
    ⟨rfl, rfl, rfl, rfl⟩
  refine ⟨_, text, last, hstep, rfl, hrest, hf, ?_⟩
  rw [Machine.stops_iff_frames (s := g.setting pick) hg rfl]
  exact forall_congr' fun f => imp_congr_right fun _ => hu.frame_idle_iff f

/-- A rule that names itself, beside one that does not. -/
def selfNaming : Grammar where
  rules := .ofList [("a".toList, ["#a#".toList]), ("b".toList, ["x".toList])]
  maxDepth := 0

/-- What is behind a rule that names itself is still expanded: the selector is asked once more after
the warning. -/
theorem selfNaming_asks_after_limit :
    let o := selfNaming.flatten (Selector.pick : Pick (Selector MersenneTwister)) .first
      "#a# #b#".toList
    o.result.toOption = some "#a# x".toList ∧
    o.events = [.picked "a".toList ["#a#".toList] "#a#".toList, .tooDeep 0 "#a#".toList,
      .picked "b".toList ["x".toList] "x".toList] := by
  decide +kernel

/-- Alone, a rule that names itself stops where it passes the limit; with a reference behind it, it
does not. -/
theorem selfNaming_stops_alone :
    let s := selfNaming.setting (Selector.pick : Pick (Selector MersenneTwister))
    (∃ m m', Walks s (.start selfNaming .first "#a#".toList) m ∧ m.AtLimit "#a#".toList ∧
      m.next s = some m' ∧ m'.Stops s) ∧
    (∃ m m', Walks s (.start selfNaming .first "#a# #b#".toList) m ∧ m.AtLimit "#a#".toList ∧
      m.next s = some m' ∧ ¬ m'.Stops s) := by
  intro s
  constructor
  · have hw := Walks.after s 3 (.start selfNaming .first "#a#".toList)
    have hl : (Machine.after s 3 (.start selfNaming .first "#a#".toList)).AtLimit "#a#".toList := by
      decide +kernel
    obtain ⟨m', -, -, hstep, -, -, -, hstops⟩ := stops_iff_idle selfNaming _ _ _ rfl hw hl
    exact ⟨_, m', hw, hl, hstep, hstops.2 (by decide +kernel)⟩
  · have hw := Walks.after s 3 (.start selfNaming .first "#a# #b#".toList)
    have hl : (Machine.after s 3 (.start selfNaming .first "#a# #b#".toList)).AtLimit
        "#a#".toList := by
      decide +kernel
    obtain ⟨m', -, -, hstep, -, -, -, hstops⟩ := stops_iff_idle selfNaming _ _ _ rfl hw hl
    exact ⟨_, m', hw, hl, hstep, fun h => absurd (hstops.1 h) (by decide +kernel)⟩

end Grammar

end TextGrammar
