import TextGrammar.Proofs.Expansion.Machine
import TextGrammar.Proofs.NameMap.Writing

/-!
# What an expansion writes

An expansion writes in one place only: where a value is found for a binding with a rule. The value
goes into the variables and, when bindings are kept, into the rules as their only candidate. So the
variables are what was written so far, and the rules are the rules of the grammar, updated by it.

## Main definitions

* `Run.writes`, `Outcome.writes` — the names bound so far, with their values, in order.
* `Run.Written` — the variables and the rules are what the writes make of them; every step keeps it.

## Main results

* `Run.Written.next`, `Run.Written.walks` — one step, and any number of steps.
* `Run.Written.get?_rules_of_get?_bound` — variables and rules agree.
* `Grammar.flatten_writes` — what an expansion leaves of the rules of a grammar.
-/

namespace TextGrammar

variable {σ : Type}

/-! ## The writes of a run -/

/-- The name and the value that an event binds. -/
def Event.write? : Event → Option (Text × Text)
  | .bound name value => some (name, value)
  | _ => none

/-- The names bound so far, with their values, the earliest first. -/
def Run.writes (run : Run σ) : List (Text × Text) := run.events.filterMap Event.write?

/-- The names that were bound, with their values, the earliest first. -/
def Outcome.writes (o : Outcome σ) : List (Text × Text) := o.events.filterMap Event.write?

/-- Writes as entries of a rule table: a bound value is the only candidate of its name. -/
def asRules (writes : List (Text × Text)) : List (Text × List Text) :=
  writes.map fun w => (w.1, [w.2])

namespace Run

theorem writes_bind (run : Run σ) (keeps : Bool) (name value : Text) :
    (run.bind keeps name value).writes = run.writes ++ [(name, value)] := by
  simp [writes, events, bind, Event.write?]

theorem writes_choose (run : Run σ) (pick : Pick σ) (symbol : Text) (candidates : List Text) :
    (run.choose pick symbol candidates).2.writes = run.writes := by
  simp [writes, events, choose, Event.write?]

theorem writes_noted (run : Run σ) (s : Setting σ) (reference : Text) (names : List Text) :
    (run.noted (s.notes reference names)).writes = run.writes := by
  have hnone := s.filterMap_notes reference names fun _ _ => (rfl : Event.write? _ = none)
  simp [writes, events, noted, List.filterMap_reverse, hnone]

theorem writes_tooDeep (run : Run σ) (limit : Int) (rule : Text) :
    ({ run.record (.tooDeep limit rule) with truncated := true } : Run σ).writes = run.writes := by
  simp [writes, events, record, Event.write?]

/-- The variables are what was written so far, and so are the rules, on top of the rules `first`,
when bindings are kept. -/
structure Written (first : RuleTable) (keeps : Bool) (run : Run σ) : Prop where
  bound : run.bound = .ofList run.writes
  rules : run.rules = if keeps then first.insertAll (asRules run.writes) else first

namespace Written

variable {first : RuleTable} {keeps : Bool} {run : Run σ}

/-- What a step leaves that writes nothing. -/
theorem of_eq (h : run.Written first keeps) {last : Run σ} (hwrites : last.writes = run.writes)
    (hbound : last.bound = run.bound) (hrules : last.rules = run.rules) :
    last.Written first keeps := by
  constructor
  · rw [hbound, hwrites, h.bound]
  · rw [hrules, hwrites, h.rules]

/-- What a step leaves that binds a value. -/
theorem bind (h : run.Written first keeps) (name value : Text) :
    (run.bind keeps name value).Written first keeps where
  bound := by
    rw [writes_bind, NameMap.ofList, NameMap.insertAll_concat, ← NameMap.ofList, ← h.bound]
    rfl
  rules := by
    rw [writes_bind, asRules, List.map_append, ← asRules]
    have hrules : (run.bind keeps name value).rules
        = if keeps then run.rules.insert name [value] else run.rules := rfl
    rw [hrules, h.rules]
    cases keeps with
    | false => rfl
    | true => exact (NameMap.insertAll_concat first (asRules run.writes) (name, [value])).symm

/-- When bindings are kept, the value of a variable is the only candidate of its name. -/
theorem get?_rules_of_get?_bound (h : run.Written first true) {name value : Text}
    (hvalue : run.bound.get? name = some value) : run.rules.get? name = some [value] := by
  obtain ⟨w, hw, rfl⟩ := Option.map_eq_some_iff.1 hvalue
  rw [h.bound, NameMap.ofList, NameMap.find?_insertAll, Option.or_eq_some_iff] at hw
  have hlast : NameMap.lastWrite run.writes name = some w :=
    hw.resolve_right fun ⟨_, hempty⟩ => by cases hempty
  rw [h.rules, if_pos rfl, NameMap.get?, NameMap.find?_insertAll, asRules,
    NameMap.lastWrite_map fun v => [v], hlast]
  rfl

end Written

end Run

/-! ## What a step writes -/

namespace Machine

variable {s : Setting σ} {m m' : Machine σ}

/-- Where a value is found for a binding with a rule, the step binds it. -/
theorem run_of_next_of_write? {w : Text × Text} (hw : m.write? = some w)
    (h : m.next s = some m') : m'.run = m.run.bind s.keepsBindings w.1 w.2 := by
  have hfinish : ∀ (b : Binding) (value : Text) (run : Run σ), b.write? value = some w →
      b.finish s value run = run.bind s.keepsBindings w.1 w.2 := by
    intro b value run hb
    obtain ⟨rule, hrule, rfl⟩ := Option.map_eq_some_iff.1 hb
    exact b.finish_of_rule (by simp [hrule]) s value run
  obtain ⟨focus, frames, run⟩ := m
  cases focus with
  | text value =>
    cases frames with
    | nil => cases hw
    | cons f frames =>
      cases f with
      | outside b =>
        cases h
        exact hfinish b value run hw
      | binding levels b more r =>
        cases h
        exact hfinish b value run hw
      | _ => cases hw
  | _ => cases hw

/-- Every other step leaves the variables, the rules and the writes as they are. -/
theorem eq_of_next_of_not_write? (hw : m.write? = none) (h : m.next s = some m') :
    m'.run.writes = m.run.writes ∧ m'.run.bound = m.run.bound ∧ m'.run.rules = m.run.rules := by
  have hchange := change_of_next h
  generalize m'.run = last at hchange
  cases hchange with
  | same => exact ⟨rfl, rfl, rfl⟩
  | @limit rule _ _ => exact ⟨m.run.writes_tooDeep s.maxDepth rule, rfl, rfl⟩
  | @choose symbol candidates _ =>
    exact ⟨m.run.writes_choose s.pick symbol candidates, rfl, rfl⟩
  | bind hbind =>
    rw [hw] at hbind
    cases hbind
  | note reference names => exact ⟨m.run.writes_noted s reference names, rfl, rfl⟩

/-- A step writes the binding that it finishes, and nothing else. -/
theorem writes_of_next (h : m.next s = some m') :
    m'.run.writes = m.run.writes ++ m.write?.toList := by
  cases hw : m.write? with
  | none => rw [(eq_of_next_of_not_write? hw h).1, Option.toList_none, List.append_nil]
  | some w => rw [run_of_next_of_write? hw h, Run.writes_bind, Option.toList_some]

end Machine

namespace Run.Written

variable {s : Setting σ} {m m' : Machine σ} {first : RuleTable}

/-- After a step the variables and the rules are what the writes make of them. -/
theorem next (hm : m.run.Written first s.keepsBindings) (h : m.next s = some m') :
    m'.run.Written first s.keepsBindings := by
  cases hw : m.write? with
  | none =>
    obtain ⟨hwrites, hbound, hrules⟩ := Machine.eq_of_next_of_not_write? hw h
    exact hm.of_eq hwrites hbound hrules
  | some w =>
    rw [Machine.run_of_next_of_write? hw h]
    exact hm.bind w.1 w.2

theorem walks (hm : m.run.Written first s.keepsBindings) (h : Walks s m m') :
    m'.run.Written first s.keepsBindings :=
  h.invariant (fun _ _ hmid hstep => Run.Written.next hmid hstep) hm

end Run.Written

/-! ## Whole expansions -/

namespace Grammar

variable {g : Grammar} {pick : Pick σ} {selector : σ} {rule : Text}

theorem written_of_walks {m : Machine σ}
    (h : Walks (g.setting pick) (.start g selector rule) m) :
    m.run.Written g.rules g.keepsBindings := by
  have hstart : (Machine.start g selector rule).run.Written g.rules g.keepsBindings := by
    refine ⟨rfl, ?_⟩
    show g.rules = if g.keepsBindings then g.rules.insertAll [] else g.rules
    rw [NameMap.insertAll_nil, ite_self]
  exact Run.Written.walks (s := g.setting pick) hstart h

/-- What an expansion writes, whether it ends with a text, passes its limit or fails. Each step
writes the binding with a rule that it finishes, and the writes of the whole expansion are those of
its steps. When bindings are not kept the rules stay as they are. When they are kept, the rules
afterwards are the rules before, updated by the writes, and at every point of the expansion the
value of a variable is the only candidate of its name. -/
theorem flatten_writes (g : Grammar) (pick : Pick σ) (selector : σ) (rule : Text) :
    let s := g.setting pick
    let start := Machine.start g selector rule
    let o := g.flatten pick selector rule
    (start.run.writes = [] ∧ (∀ m m', Walks s start m → m.next s = some m' →
      m'.run.writes = m.run.writes ++ m.write?.toList) ∧
      ∃ last, Walks s start last ∧ last.next s = none ∧ o.writes = last.run.writes) ∧
    (g.keepsBindings = false → o.grammar.rules = g.rules) ∧
    (g.keepsBindings = true → g.rules.Updated (asRules o.writes) o.grammar.rules ∧
      ∀ m, Walks s start m → ∀ name value, m.run.bound.get? name = some value →
        m.run.rules.get? name = some [value]) := by
  intro s start o
  obtain ⟨last, hlast, hend, hevents, hrules⟩ := g.exists_last_point pick selector rule
  have hwrites : o.writes = last.run.writes := congrArg (List.filterMap Event.write?) hevents
  refine ⟨⟨rfl, fun m m' _ hstep => Machine.writes_of_next hstep, last, hlast, hend, hwrites⟩,
    fun hg => ?_, fun hg => ⟨?_, fun m hm name value hvalue => ?_⟩⟩
  · have hwritten := (written_of_walks hlast).rules
    rw [hrules, hwritten, hg]
    rfl
  · have hwritten := (written_of_walks hlast).rules
    rw [hg, if_pos rfl] at hwritten
    rw [hrules, hwrites, hwritten]
    exact NameMap.updated_insertAll g.rules (asRules last.run.writes)
  · have hwritten := written_of_walks hm
    rw [hg] at hwritten
    exact hwritten.get?_rules_of_get?_bound hvalue

end Grammar

end TextGrammar
