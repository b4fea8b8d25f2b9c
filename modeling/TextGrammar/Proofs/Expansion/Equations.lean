import TextGrammar.Grammar

/-!
# What the steps of an expansion do to a run

A step of an expansion takes a run to an answer and a new run, or fails. This module opens
sequencing, so that later proofs speak of the runs between two steps and never of the monad.

## Main definitions

* `Run.depthWarnings`, `Outcome.depthWarnings` — the warnings that a rule was left as it is because
  it lies too deep; `Outcome.warningLines`, what the log says of them.
* `Outcome.PassesLimit` — an expansion failed at the depth limit or warned that it passed it.
-/

namespace TextGrammar

variable {σ α β : Type}

/-! ## Sequencing -/

namespace Expansion

@[simp] theorem run_pure (a : α) (run : Run σ) : (pure a : Expansion σ α) run = .ok a run := rfl

/-- The second step starts where the first one ends, and does not start when the first one fails. -/
theorem run_bind (x : Expansion σ α) (f : α → Expansion σ β) (run : Run σ) :
    (x >>= f) run = match x run with
      | .ok a run' => f a run'
      | .error e run' => .error e run' := by
  change EStateM.bind x f run = _
  unfold EStateM.bind
  cases x run <;> rfl

theorem run_bind_of_ok {x : Expansion σ α} {run run' : Run σ} {a : α} (h : x run = .ok a run')
    (f : α → Expansion σ β) : (x >>= f) run = f a run' := by
  rw [run_bind, h]

theorem run_bind_of_error {x : Expansion σ α} {run run' : Run σ} {e : DepthExceeded}
    (h : x run = .error e run') (f : α → Expansion σ β) : (x >>= f) run = .error e run' := by
  rw [run_bind, h]

/-- Two steps give an answer when both do. -/
theorem exists_of_run_bind_eq_ok {x : Expansion σ α} {f : α → Expansion σ β} {run run' : Run σ}
    {b : β} (h : (x >>= f) run = .ok b run') :
    ∃ a mid, x run = .ok a mid ∧ f a mid = .ok b run' := by
  rw [run_bind] at h
  cases hx : x run with
  | ok a mid => exact ⟨a, mid, rfl, by rw [hx] at h; exact h⟩
  | error e mid => rw [hx] at h; cases h

theorem run_bind_eq_ok_iff {x : Expansion σ α} {f : α → Expansion σ β} {run run' : Run σ} {b : β} :
    (x >>= f) run = .ok b run' ↔ ∃ a mid, x run = .ok a mid ∧ f a mid = .ok b run' := by
  refine ⟨exists_of_run_bind_eq_ok, ?_⟩
  rintro ⟨a, mid, hx, hf⟩
  exact (run_bind_of_ok hx f).trans hf

/-- A step gives the answer that is left when the run after it is forgotten. -/
theorem exists_ok_of_run' {x : Expansion σ α} {run : Run σ} {a : α} (h : x.run' run = some a) :
    ∃ last, x run = .ok a last := by
  unfold EStateM.run' EStateM.run at h
  split at h
  · rename_i a' last hx
    cases h
    exact ⟨last, hx⟩
  · cases h

/-- Which of two steps runs is decided by whether the limit has been passed before. -/
theorem run_ite_truncated (x y : Expansion σ α) (run : Run σ) :
    (do if (← get).truncated then x else y : Expansion σ α) run
      = if run.truncated then x run else y run := by
  rw [run_bind]
  show (if run.truncated then x else y) run = _
  split <;> rfl

end Expansion

/-! ## Single steps -/

theorem tooDeep_of_strict {s : Setting σ} (hs : s.strict = true) (rule : Text) (run : Run σ) :
    tooDeep s rule run = .error ⟨s.maxDepth, rule⟩ run := by
  simp [tooDeep, hs]

theorem tooDeep_of_truncated {s : Setting σ} (hs : s.strict = false) (rule : Text) {run : Run σ}
    (hr : run.truncated = true) : tooDeep s rule run = .ok rule run := by
  simp [tooDeep, hs, hr]

theorem tooDeep_of_not_truncated {s : Setting σ} (hs : s.strict = false) (rule : Text) {run : Run σ}
    (hr : run.truncated = false) :
    tooDeep s rule run
      = .ok rule { run.record (.tooDeep s.maxDepth rule) with truncated := true } := by
  simp [tooDeep, hs, hr]

theorem resolve_of_bound {s : Setting σ} {symbol value : Text} {run : Run σ}
    (h : run.bound.get? symbol = some value) : resolve s symbol run = .ok value run := by
  simp [resolve, h]

theorem resolve_of_candidates {s : Setting σ} {symbol : Text} {candidates : List Text} {run : Run σ}
    (hb : run.bound.get? symbol = none) (hr : run.rules.get? symbol = some candidates) :
    resolve s symbol run = .ok (run.choose s.pick symbol candidates).1
      (run.choose s.pick symbol candidates).2 := by
  simp [resolve, hb, hr]

theorem resolve_of_unknown {s : Setting σ} {symbol : Text} {run : Run σ}
    (hb : run.bound.get? symbol = none) (hr : run.rules.get? symbol = none) :
    resolve s symbol run = .ok symbol run := by
  simp [resolve, hb, hr]

/-- What modifiers make of a text, from left to right; a name that no modifier has changes
nothing. -/
def Setting.modified (s : Setting σ) (names : List Text) (text : Text) : Text :=
  names.foldl (fun t name => (s.modifiers.get? name).elim t fun m => m.apply t) text

/-- What is noted of the names that no modifier has, the latest first. -/
def Setting.notes (s : Setting σ) (reference : Text) (names : List Text) : List Event :=
  ((names.filter fun name => (s.modifiers.get? name).isNone).map
    fun name => .unknownModifier name reference).reverse

theorem Setting.eq_of_mem_notes (s : Setting σ) {reference : Text} {names : List Text} {e : Event}
    (h : e ∈ s.notes reference names) : ∃ name, e = .unknownModifier name reference := by
  obtain ⟨name, -, rfl⟩ := List.mem_map.1 (List.mem_reverse.1 h)
  exact ⟨name, rfl⟩

/-- What is read off events, but not off notes of unknown modifiers, is not read off notes. -/
theorem Setting.filterMap_notes (s : Setting σ) (reference : Text) (names : List Text)
    {f : Event → Option β} (hf : ∀ name reference, f (.unknownModifier name reference) = none) :
    (s.notes reference names).filterMap f = [] := by
  refine List.filterMap_eq_nil_iff.2 fun e he => ?_
  obtain ⟨name, rfl⟩ := s.eq_of_mem_notes he
  exact hf name reference

/-- Adds events to the trace, the latest first. -/
def Run.noted (run : Run σ) (events : List Event) : Run σ :=
  { run with trace := events ++ run.trace }

/-- Modifiers change the text; the run keeps a note of every name that no modifier has. -/
theorem applyModifiers_run (s : Setting σ) (reference : Text) (names : List Text) (text : Text)
    (run : Run σ) : applyModifiers s reference names text run
      = .ok (s.modified names text) (run.noted (s.notes reference names)) := by
  induction names generalizing text run with
  | nil => rfl
  | cons name names ih =>
    rw [applyModifiers]
    cases hm : s.modifiers.get? name with
    | some m =>
      refine (ih (m.apply text) run).trans ?_
      simp [Setting.modified, Setting.notes, hm]
    | none =>
      refine (ih text (run.record (.unknownModifier name reference))).trans ?_
      simp [Setting.modified, Setting.notes, Run.noted, Run.record, hm]

/-- A rule without a construct expands to itself at every depth. -/
theorem flatten_of_not_hasSyntax (s : Setting σ) (levels : Nat) {rule : Text}
    (h : hasSyntax rule = false) : flatten s levels rule = pure rule := by
  cases levels <;> simp [flatten, h]

theorem flatten_zero {rule : Text} (s : Setting σ) (h : hasSyntax rule = true) :
    flatten s 0 rule = tooDeep s rule := by
  simp [flatten, h]

theorem flatten_succ_of_truncated {rule : Text} {run : Run σ} (s : Setting σ) (levels : Nat)
    (h : hasSyntax rule = true) (hr : run.truncated = true) :
    flatten s (levels + 1) rule run = tooDeep s rule run := by
  rw [flatten, if_pos h, Expansion.run_ite_truncated, if_pos hr]

theorem flatten_succ_of_not_truncated {rule : Text} {run : Run σ} (s : Setting σ) (levels : Nat)
    (h : hasSyntax rule = true) (hr : run.truncated = false) :
    flatten s (levels + 1) rule run = expandNodes s (flatten s levels) (parse rule) run := by
  rw [flatten, if_pos h, Expansion.run_ite_truncated, if_neg (by simp [hr])]

/-- Once the limit has been passed, a lenient expansion leaves every rule as it is. -/
theorem flatten_of_truncated {s : Setting σ} {run : Run σ} (levels : Nat) (hs : s.strict = false)
    (ht : run.truncated = true) (rule : Text) :
    flatten s levels rule run = .ok rule run := by
  cases hr : hasSyntax rule with
  | false =>
    rw [flatten_of_not_hasSyntax s levels hr]
    rfl
  | true =>
    cases levels with
    | zero => rw [flatten_zero s hr, tooDeep_of_truncated hs rule ht]
    | succ levels => rw [flatten_succ_of_truncated s levels hr ht, tooDeep_of_truncated hs rule ht]

/-- A strict expansion that ends with a text had nothing to expand, or went through the parts of
the rule with a level less. -/
theorem flatten_eq_ok_of_strict {s : Setting σ} (hs : s.strict = true) {levels : Nat}
    {rule text : Text} {run last : Run σ} (h : flatten s levels rule run = .ok text last) :
    (hasSyntax rule = false ∧ text = rule ∧ last = run) ∨
    ∃ fewer, levels = fewer + 1 ∧ hasSyntax rule = true ∧ run.truncated = false ∧
      expandNodes s (flatten s fewer) (parse rule) run = .ok text last := by
  cases hr : hasSyntax rule with
  | false =>
    rw [flatten_of_not_hasSyntax s levels hr] at h
    cases h
    exact .inl ⟨rfl, rfl, rfl⟩
  | true =>
    refine .inr ?_
    cases levels with
    | zero =>
      rw [flatten_zero s hr, tooDeep_of_strict hs] at h
      cases h
    | succ fewer =>
      cases ht : run.truncated with
      | true =>
        rw [flatten_succ_of_truncated s fewer hr ht, tooDeep_of_strict hs] at h
        cases h
      | false =>
        rw [flatten_succ_of_not_truncated s fewer hr ht] at h
        exact ⟨fewer, rfl, rfl, rfl, h⟩

/-! ## The warnings of an expansion -/

/-- The warning that an event is: the limit and the rule that lies deeper. -/
def Event.depthWarning? : Event → Option DepthExceeded
  | .tooDeep limit rule => some ⟨limit, rule⟩
  | _ => none

/-- The warnings so far, the latest first. -/
def Run.depthWarnings (run : Run σ) : List DepthExceeded := run.trace.filterMap Event.depthWarning?

/-- A note of unknown modifiers is no warning. -/
theorem Setting.depthWarnings_noted (s : Setting σ) (reference : Text) (names : List Text)
    (run : Run σ) : (run.noted (s.notes reference names)).depthWarnings = run.depthWarnings := by
  rw [Run.depthWarnings, Run.noted, List.filterMap_append,
    s.filterMap_notes reference names fun _ _ => rfl]
  rfl

/-- The warnings of an expansion, the earliest first. -/
def Outcome.depthWarnings (o : Outcome σ) : List DepthExceeded :=
  o.events.filterMap Event.depthWarning?

/-- What the log says of a rule that was left as it is. -/
def DepthExceeded.warning (e : DepthExceeded) : Text :=
  "expansion exceeded max depth ".toList ++ integerText e.limit ++ "; leaving ".toList
    ++ e.rule.quoted ++ " unexpanded".toList

/-- The line that an event adds to the log as a warning. -/
def Event.warningLine? (e : Event) : Option Text :=
  match e.logLine? with
  | some (.warning, line) => some line
  | _ => none

/-- The lines that an expansion adds to the log as warnings. -/
def Outcome.warningLines (o : Outcome σ) : List Text := o.events.filterMap Event.warningLine?

/-- Nothing is logged as a warning but that a rule lies too deep. -/
theorem Event.warningLine?_eq (e : Event) :
    e.warningLine? = e.depthWarning?.map DepthExceeded.warning := by
  cases e <;> rfl

theorem Outcome.warningLines_eq (o : Outcome σ) :
    o.warningLines = o.depthWarnings.map DepthExceeded.warning := by
  rw [Outcome.warningLines, Outcome.depthWarnings, List.map_filterMap]
  exact congrArg (o.events.filterMap ·) (funext Event.warningLine?_eq)

/-- An expansion failed at the depth limit or warned that it passed it. -/
def Outcome.PassesLimit (o : Outcome σ) : Prop :=
  (∃ e, o.result = .error e) ∨ o.depthWarnings ≠ []

instance (o : Outcome σ) : Decidable o.PassesLimit :=
  match h : o.result with
  | .error e => isTrue (.inl ⟨e, h⟩)
  | .ok _ => decidable_of_iff (o.depthWarnings ≠ [])
      ⟨.inr, fun hp => hp.resolve_left fun ⟨e, he⟩ => by rw [h] at he; cases he⟩

/-- What an expansion that ends with a text comes to. -/
def Grammar.finished (g : Grammar) (text : Text) (run : Run σ) : Outcome σ :=
  ⟨.ok text, { g with rules := run.rules }, run.selector, run.events⟩

/-- What an expansion that fails comes to. -/
def Grammar.failed (g : Grammar) (e : DepthExceeded) (run : Run σ) : Outcome σ :=
  ⟨.error e, { g with rules := run.rules }, run.selector, run.events⟩

/-- The run that an expansion starts with. -/
def Grammar.start (g : Grammar) (selector : σ) : Run σ := { rules := g.rules, selector := selector }

theorem Run.depthWarnings_events (run : Run σ) :
    run.events.filterMap Event.depthWarning? = run.depthWarnings.reverse := by
  rw [Run.events, List.filterMap_reverse, Run.depthWarnings]

@[simp] theorem Grammar.depthWarnings_finished (g : Grammar) (text : Text) (run : Run σ) :
    (g.finished text run).depthWarnings = run.depthWarnings.reverse :=
  run.depthWarnings_events

theorem Grammar.flatten_of_ok {g : Grammar} {pick : Pick σ} {selector : σ} {rule text : Text}
    {run : Run σ} (h : flattenTop (g.setting pick) rule (g.start selector) = .ok text run) :
    g.flatten pick selector rule = g.finished text run := by
  rw [Grammar.start] at h
  rw [Grammar.flatten, h, Grammar.finished]

theorem Grammar.flatten_of_error {g : Grammar} {pick : Pick σ} {selector : σ} {rule : Text}
    {e : DepthExceeded} {run : Run σ}
    (h : flattenTop (g.setting pick) rule (g.start selector) = .error e run) :
    g.flatten pick selector rule = g.failed e run := by
  rw [Grammar.start] at h
  rw [Grammar.flatten, h, Grammar.failed]

end TextGrammar
