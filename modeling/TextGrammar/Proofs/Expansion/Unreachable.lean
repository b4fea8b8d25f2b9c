import TextGrammar.Proofs.Expansion.Judgment
import TextGrammar.Proofs.Expansion.Machine
import TextGrammar.Proofs.Lint.Reachability
import TextGrammar.Select.MersenneTwister

/-!
# Symbols that the start never leads to are never used

As long as the limit is not passed, an expansion that starts inside a region goes through enclosed
rules only, and what it binds is plain. After the limit is passed texts may be of any kind, but no
rule is gone through any more: what is pending was read before. So every symbol that is looked up is
one that the region sees, and a table that agrees with the rules on these takes the expansion
through the same points.

## Main definitions

* `Run.Within`, `Machine.Within` — nothing leads out of a region; every step keeps it.
* `Machine.withRules` — a point of an expansion with other rules in force.

## Main results

* `Machine.Within.next`, `Machine.Within.walks` — one step inside a region, and any number of steps.
* `Machine.Within.next_withRules`, `Machine.Within.walks_withRules` — the same with other rules that
  agree inside the region.
* `Grammar.flatten_of_agree` — expansions inside a region do not depend on what lies outside.
* `Grammar.flatten_without_unreachable` — what is reported to be unreachable is never used.
-/

namespace TextGrammar

variable {σ : Type} {table : RuleTable}

/-! ## Points inside a region -/

/-- The selector was asked for no symbol but one that the region sees. -/
def Event.Within (region : Region table) : Event → Prop
  | .picked symbol _ _ => region.Sees symbol
  | _ => True

/-- Every symbol that the selector was asked for is seen by the region, and as long as the limit is
not passed bound values are plain and the candidates of what is seen are enclosed. -/
structure Run.Within (region : Region table) (pick : Pick σ) (run : Run σ) : Prop where
  bound : run.truncated = false → ∀ value ∈ run.bound.values, Plain value
  rules : run.truncated = false → ∀ ⦃name candidates⦄, region.Sees name →
    run.rules.get? name = some candidates → ∀ rule ∈ candidates, region.Encloses rule
  trace : ∀ e ∈ run.trace, e.Within region
  selector : pick.Offers run.selector

/-- What is worked on lies in the region; texts are plain as long as the limit is not passed. -/
def Focus.Within (region : Region table) (truncated : Bool) : Focus → Prop
  | .rule _ asked => truncated = false → region.Encloses asked
  | .parts _ before nodes => (truncated = false → Plain before) ∧ ∀ node ∈ nodes, node.Within region
  | .bindings _ more r => r.Within region ∧ ∀ b ∈ more, region.Encloses b.asked
  | .text t => truncated = false → Plain t
  | .failure _ => True

/-- What is pending lies in the region. -/
def Frame.Within (region : Region table) (truncated : Bool) : Frame → Prop
  | .parts _ before after => (truncated = false → Plain before) ∧ ∀ node ∈ after, node.Within region
  | .outside _ => False
  | .binding _ _ more r => r.Within region ∧ ∀ b ∈ more, region.Encloses b.asked
  | .symbol _ _ => True

/-- Neither what is worked on nor what is pending leads out of the region. -/
structure Machine.Within (region : Region table) (pick : Pick σ) (m : Machine σ) : Prop where
  focus : m.focus.Within region m.run.truncated
  frames : ∀ f ∈ m.frames, f.Within region m.run.truncated
  run : m.run.Within region pick

section Runs

variable {region : Region table} {pick : Pick σ} {run : Run σ}

/-- When the limit is passed less is asked of what is pending. -/
theorem Frame.Within.truncated {t : Bool} {f : Frame} (h : f.Within region t) :
    f.Within region true := by
  cases f with
  | parts levels before after => exact ⟨nofun, h.2⟩
  | outside b => exact h
  | binding levels b more r => exact h
  | symbol levels r => exact h

/-- Passing the limit, which is recorded, leaves a run inside. -/
theorem Run.Within.limit (h : run.Within region pick) (limit : Int) (rule : Text) :
    ({ run.record (.tooDeep limit rule) with truncated := true } : Run σ).Within region pick where
  bound := nofun
  rules := nofun
  trace := List.forall_mem_cons.2 ⟨trivial, h.trace⟩
  selector := h.selector

theorem Run.Within.bind (h : run.Within region pick) (keeps : Bool) (name : Text) {value : Text}
    (hv : run.truncated = false → Plain value) : (run.bind keeps name value).Within region pick where
  bound := fun ht => Run.plain_values_bind (h.bound ht) (hv ht) keeps
  rules := by
    intro ht seen candidates hsees hget rule hrule
    cases keeps with
    | false => exact h.rules ht hsees hget rule hrule
    | true =>
      by_cases hname : Text.lower seen = Text.lower name
      · have hnew := (NameMap.get?_insert_of_lower_eq run.rules [value] hname).symm.trans hget
        cases hnew
        rw [List.mem_singleton.1 hrule]
        exact Region.encloses_of_plain (hv ht)
      · have hold := (NameMap.get?_insert_of_lower_ne run.rules [value] hname).symm.trans hget
        exact h.rules ht hsees hold rule hrule
  trace := List.forall_mem_cons.2 ⟨trivial, h.trace⟩
  selector := h.selector

theorem Run.Within.choose (h : run.Within region pick) {symbol : Text}
    (hsees : region.Sees symbol) (candidates : List Text) :
    (run.choose pick symbol candidates).2.Within region pick where
  bound := h.bound
  rules := h.rules
  trace := List.forall_mem_cons.2 ⟨hsees, h.trace⟩
  selector := h.selector.next symbol candidates

theorem Run.Within.noted (h : run.Within region pick) (s : Setting σ) (reference : Text)
    (names : List Text) : (run.noted (s.notes reference names)).Within region pick where
  bound := h.bound
  rules := h.rules
  trace := by
    refine List.forall_mem_append.2 ⟨fun e he => ?_, h.trace⟩
    obtain ⟨name, rfl⟩ := s.eq_of_mem_notes he
    trivial
  selector := h.selector

/-- A binding is finished inside. -/
theorem Run.Within.finish (h : run.Within region pick) (b : Binding) (s : Setting σ) {value : Text}
    (hv : run.truncated = false → Plain value) : (b.finish s value run).Within region pick := by
  by_cases hb : b.rule = none
  · rw [b.finish_of_bare hb]
    exact h
  · rw [b.finish_of_rule hb]
    exact h.bind s.keepsBindings b.name hv

theorem Binding.truncated_finish (b : Binding) (s : Setting σ) (value : Text) (run : Run σ) :
    (b.finish s value run).truncated = run.truncated := by
  unfold Binding.finish
  split <;> rfl

/-- The candidate that is chosen for a symbol inside is enclosed. -/
theorem Run.Within.encloses_choose (h : run.Within region pick) (ht : run.truncated = false)
    {symbol : Text} (hsees : region.Sees symbol) {candidates : List Text}
    (hget : run.rules.get? symbol = some candidates) :
    region.Encloses (run.choose pick symbol candidates).1 := by
  rcases h.selector.answer symbol candidates with hnone | hmem
  · rw [show (run.choose pick symbol candidates).1 = [] from hnone]
    exact Region.encloses_of_plain plain_nil
  · exact h.rules ht hsees hget _ hmem

end Runs

/-- Modifiers that add no delimiter make a plain text of a plain text. -/
theorem Setting.plain_modified {s : Setting σ} (hm : Registry.KeepsPlain s.modifiers)
    (names : List Text) {t : Text} (ht : Plain t) : Plain (s.modified names t) := by
  induction names generalizing t with
  | nil => exact ht
  | cons name names ih =>
    have hfirst : Plain ((s.modifiers.get? name).elim t fun m => m.apply t) := by
      cases hget : s.modifiers.get? name with
      | none => exact ht
      | some m => exact hm m (NameMap.mem_values_of_get? hget) t ht
    exact ih hfirst

/-! ## Steps inside a region -/

namespace Machine

variable {s : Setting σ} {m m' : Machine σ} {region : Region table}

theorem Within.next_rule {levels : Nat} {rule : Text} {frames : List Frame} {run : Run σ}
    (hm : Within region s.pick ⟨.rule levels rule, frames, run⟩)
    (h : (⟨.rule levels rule, frames, run⟩ : Machine σ).next s = some m') :
    m'.Within region s.pick := by
  obtain ⟨hfocus, hframes, hrun⟩ := hm
  rcases next_rule_cases h with ⟨hr, rfl⟩ | ⟨-, ht, fewer, -, rfl⟩ | ⟨-, -, rfl⟩
  · exact ⟨fun _ => hasSyntax_eq_false_iff.1 hr, hframes, hrun⟩
  · exact ⟨⟨fun _ => plain_nil, fun node hn => (hfocus ht).within hn⟩, hframes, hrun⟩
  · -- A rule that is given back is not plain, but it comes after the limit.
    cases hs : s.strict with
    | true =>
      rw [tooDeep_of_strict hs]
      exact ⟨trivial, fun f hf => (List.not_mem_nil hf).elim, hrun⟩
    | false =>
      cases ht : run.truncated with
      | true =>
        rw [tooDeep_of_truncated hs rule ht]
        have htext : Focus.Within region run.truncated (.text rule) :=
          fun hno => Bool.noConfusion (ht.symm.trans hno)
        exact ⟨htext, hframes, hrun⟩
      | false =>
        rw [tooDeep_of_not_truncated hs rule ht]
        exact ⟨nofun, fun f hf => (hframes f hf).truncated, hrun.limit s.maxDepth rule⟩

theorem Within.next_parts {levels : Nat} {before : Text} {nodes : List Node} {frames : List Frame}
    {run : Run σ} (hm : Within region s.pick ⟨.parts levels before nodes, frames, run⟩)
    (h : (⟨.parts levels before nodes, frames, run⟩ : Machine σ).next s = some m') :
    m'.Within region s.pick := by
  obtain ⟨⟨hbefore, hnodes⟩, hframes, hrun⟩ := hm
  cases nodes with
  | nil =>
    cases h
    exact ⟨hbefore, hframes, hrun⟩
  | cons node after =>
    obtain ⟨hnode, hafter⟩ := List.forall_mem_cons.1 hnodes
    cases node with
    | text value =>
      cases h
      exact ⟨⟨fun ht => (hbefore ht).append hnode, hafter⟩, hframes, hrun⟩
    | binding b => exact hnode.elim
    | reference r =>
      have hparts : Frame.Within region run.truncated (.parts levels before after) :=
        ⟨hbefore, hafter⟩
      cases h
      exact ⟨⟨hnode, hnode.asked⟩, List.forall_mem_cons.2 ⟨hparts, hframes⟩, hrun⟩

theorem Within.next_bindings {levels : Nat} {bindings : List Binding} {r : Reference}
    {frames : List Frame} {run : Run σ}
    (hm : Within region s.pick ⟨.bindings levels bindings r, frames, run⟩)
    (h : (⟨.bindings levels bindings r, frames, run⟩ : Machine σ).next s = some m') :
    m'.Within region s.pick := by
  obtain ⟨⟨hr, hasked⟩, hframes, hrun⟩ := hm
  cases bindings with
  | cons b more =>
    obtain ⟨hfirst, hmore⟩ := List.forall_mem_cons.1 hasked
    have hframe : Frame.Within region run.truncated (.binding levels b more r) := ⟨hr, hmore⟩
    cases h
    exact ⟨fun _ => hfirst, List.forall_mem_cons.2 ⟨hframe, hframes⟩, hrun⟩
  | nil =>
    have hpending : ∀ f ∈ Frame.symbol levels r :: frames, f.Within region run.truncated :=
      List.forall_mem_cons.2 ⟨trivial, hframes⟩
    rw [next] at h
    cases hb : run.bound.get? r.symbol with
    | some value =>
      rw [resolve_of_bound hb] at h
      cases h
      refine ⟨fun ht => ?_, hpending, hrun⟩
      exact Region.encloses_of_plain (hrun.bound ht value (NameMap.mem_values_of_get? hb))
    | none =>
      cases hc : run.rules.get? r.symbol with
      | none =>
        rw [resolve_of_unknown hb hc] at h
        cases h
        exact ⟨fun _ => Region.encloses_of_plain hr.plain, hpending, hrun⟩
      | some candidates =>
        rw [resolve_of_candidates hb hc] at h
        cases h
        exact ⟨fun ht => hrun.encloses_choose ht hr.sees hc, hpending,
          hrun.choose hr.sees candidates⟩

theorem Within.next_text (hmodifiers : Registry.KeepsPlain s.modifiers) {t : Text}
    {frames : List Frame} {run : Run σ} (hm : Within region s.pick ⟨.text t, frames, run⟩)
    (h : (⟨.text t, frames, run⟩ : Machine σ).next s = some m') : m'.Within region s.pick := by
  obtain ⟨htext, hframes, hrun⟩ := hm
  cases frames with
  | nil => cases h
  | cons f frames =>
    obtain ⟨hf, hframes⟩ := List.forall_mem_cons.1 hframes
    cases f with
    | parts levels before after =>
      cases h
      exact ⟨⟨fun ht => (hf.1 ht).append (htext ht), hf.2⟩, hframes, hrun⟩
    | outside b => exact hf.elim
    | binding levels b more r =>
      cases h
      refine ⟨hf, ?_, hrun.finish b s htext⟩
      show ∀ f ∈ frames, f.Within region (b.finish s t run).truncated
      rw [b.truncated_finish]
      exact hframes
    | symbol levels r =>
      rw [next_symbol] at h
      cases h
      refine ⟨fun ht => ?_, hframes, hrun.noted s r.raw r.modifiers⟩
      exact Region.encloses_of_plain (s.plain_modified hmodifiers r.modifiers (htext ht))

/-- A step inside a region stays inside. -/
theorem Within.next (hmodifiers : Registry.KeepsPlain s.modifiers) (hm : m.Within region s.pick)
    (h : m.next s = some m') : m'.Within region s.pick := by
  obtain ⟨focus, frames, run⟩ := m
  cases focus with
  | rule levels rule => exact hm.next_rule h
  | parts levels before nodes => exact hm.next_parts h
  | bindings levels bindings r => exact hm.next_bindings h
  | text t => exact hm.next_text hmodifiers h
  | failure e => cases h

theorem Within.walks (hmodifiers : Registry.KeepsPlain s.modifiers) (hm : m.Within region s.pick)
    (h : Walks s m m') : m'.Within region s.pick :=
  h.invariant (fun _ _ hmid hstep => hmid.next hmodifiers hstep) hm

end Machine

/-! ## The same steps with other rules -/

/-- A run with other rules in force. -/
def Run.withRules (run : Run σ) (rules : RuleTable) : Run σ := { run with rules }

/-- A point of an expansion with other rules in force. -/
def Machine.withRules (m : Machine σ) (rules : RuleTable) : Machine σ :=
  ⟨m.focus, m.frames, m.run.withRules rules⟩

section Rules

variable {s : Setting σ} {region : Region table} {run : Run σ} {rules : RuleTable}

/-- Stopping at the limit does not read the rules. -/
theorem settle_tooDeep_withRules (s : Setting σ) (frames : List Frame) (rule : Text) (run : Run σ)
    (rules : RuleTable) :
    Machine.settle frames .text (tooDeep s rule (run.withRules rules))
        = (Machine.settle frames .text (tooDeep s rule run)).withRules rules ∧
      (Machine.settle frames .text (tooDeep s rule run)).run.rules = run.rules := by
  cases hs : s.strict with
  | true =>
    rw [tooDeep_of_strict hs, tooDeep_of_strict hs]
    exact ⟨rfl, rfl⟩
  | false =>
    cases ht : run.truncated with
    | true =>
      have hother : (run.withRules rules).truncated = true := ht
      rw [tooDeep_of_truncated hs rule ht, tooDeep_of_truncated hs rule hother]
      exact ⟨rfl, rfl⟩
    | false =>
      have hother : (run.withRules rules).truncated = false := ht
      rw [tooDeep_of_not_truncated hs rule ht, tooDeep_of_not_truncated hs rule hother]
      exact ⟨rfl, rfl⟩

/-- What a binding writes leaves the rules in agreement. -/
theorem Binding.finish_withRules (b : Binding) (s : Setting σ) (value : Text)
    (ha : region.Agree run.rules rules) : ∃ rules',
      region.Agree (b.finish s value run).rules rules' ∧
        b.finish s value (run.withRules rules) = (b.finish s value run).withRules rules' := by
  by_cases hb : b.rule = none
  · rw [b.finish_of_bare hb, b.finish_of_bare hb]
    exact ⟨rules, ha, rfl⟩
  · rw [b.finish_of_rule hb, b.finish_of_rule hb]
    cases hk : s.keepsBindings with
    | false => exact ⟨rules, ha, rfl⟩
    | true => exact ⟨rules.insert b.name [value], ha.insert b.name [value], rfl⟩

end Rules

namespace Machine

variable {s : Setting σ} {m m' : Machine σ} {region : Region table} {rules : RuleTable}

theorem next_rule_withRules {levels : Nat} {rule : Text} {frames : List Frame} {run : Run σ}
    (ha : region.Agree run.rules rules)
    (h : (⟨.rule levels rule, frames, run⟩ : Machine σ).next s = some m') :
    ∃ rules', region.Agree m'.run.rules rules' ∧
      (⟨.rule levels rule, frames, run.withRules rules⟩ : Machine σ).next s
        = some (m'.withRules rules') := by
  refine ⟨rules, ?_⟩
  rcases next_rule_cases h with ⟨hr, rfl⟩ | ⟨hr, ht, fewer, rfl, rfl⟩ | ⟨hr, hover, rfl⟩
  · exact ⟨ha, next_rule_of_not_hasSyntax s levels frames _ hr⟩
  · exact ⟨ha, next_rule_of_within s fewer frames hr ht⟩
  · obtain ⟨hsame, hrules⟩ := settle_tooDeep_withRules s frames rule run rules
    have hother : levels = 0 ∨ (run.withRules rules).truncated = true := hover
    rw [hrules, next_rule_of_passedOver s frames hr hother, hsame]
    exact ⟨ha, rfl⟩

theorem next_bindings_withRules {levels : Nat} {bindings : List Binding} {r : Reference}
    {frames : List Frame} {run : Run σ} (hsees : region.Sees r.symbol)
    (ha : region.Agree run.rules rules)
    (h : (⟨.bindings levels bindings r, frames, run⟩ : Machine σ).next s = some m') :
    ∃ rules', region.Agree m'.run.rules rules' ∧
      (⟨.bindings levels bindings r, frames, run.withRules rules⟩ : Machine σ).next s
        = some (m'.withRules rules') := by
  refine ⟨rules, ?_⟩
  cases bindings with
  | cons b more =>
    cases h
    exact ⟨ha, rfl⟩
  | nil =>
    rw [next] at h ⊢
    cases hb : run.bound.get? r.symbol with
    | some value =>
      have hother : (run.withRules rules).bound.get? r.symbol = some value := hb
      rw [resolve_of_bound hb] at h
      rw [resolve_of_bound hother]
      cases h
      exact ⟨ha, rfl⟩
    | none =>
      have hother : (run.withRules rules).bound.get? r.symbol = none := hb
      -- Here alone rules are read, and at a symbol that the region sees.
      have hget : (run.withRules rules).rules.get? r.symbol = run.rules.get? r.symbol :=
        ha r.symbol hsees
      cases hc : run.rules.get? r.symbol with
      | none =>
        rw [resolve_of_unknown hb hc] at h
        rw [resolve_of_unknown hother (hget.trans hc)]
        cases h
        exact ⟨ha, rfl⟩
      | some candidates =>
        rw [resolve_of_candidates hb hc] at h
        rw [resolve_of_candidates hother (hget.trans hc)]
        cases h
        exact ⟨ha, rfl⟩

theorem next_text_withRules {t : Text} {frames : List Frame} {run : Run σ}
    (ha : region.Agree run.rules rules)
    (h : (⟨.text t, frames, run⟩ : Machine σ).next s = some m') :
    ∃ rules', region.Agree m'.run.rules rules' ∧
      (⟨.text t, frames, run.withRules rules⟩ : Machine σ).next s
        = some (m'.withRules rules') := by
  cases frames with
  | nil => cases h
  | cons f frames =>
    cases f with
    | parts levels before after =>
      cases h
      exact ⟨rules, ha, rfl⟩
    | outside b =>
      obtain ⟨rules', ha', hfinish⟩ := b.finish_withRules s t ha
      cases h
      exact ⟨rules', ha', by rw [next, hfinish]; rfl⟩
    | binding levels b more r =>
      obtain ⟨rules', ha', hfinish⟩ := b.finish_withRules s t ha
      cases h
      exact ⟨rules', ha', by rw [next, hfinish]; rfl⟩
    | symbol levels r =>
      rw [next_symbol] at h ⊢
      cases h
      exact ⟨rules, ha, rfl⟩

/-- Inside a region a step is the same with other rules that agree there, and leaves rules that
agree. -/
theorem Within.next_withRules (hm : m.Within region s.pick) (ha : region.Agree m.run.rules rules)
    (h : m.next s = some m') : ∃ rules', region.Agree m'.run.rules rules' ∧
      (m.withRules rules).next s = some (m'.withRules rules') := by
  obtain ⟨focus, frames, run⟩ := m
  cases focus with
  | rule levels rule => exact next_rule_withRules ha h
  | parts levels before nodes =>
    refine ⟨rules, ?_⟩
    rcases nodes with _ | ⟨value | b | r, after⟩
    all_goals
      cases h
      exact ⟨ha, rfl⟩
  | bindings levels bindings r => exact next_bindings_withRules hm.focus.1.sees ha h
  | text t => exact next_text_withRules ha h
  | failure e => cases h

theorem Within.walks_withRules (hmodifiers : Registry.KeepsPlain s.modifiers)
    (hm : m.Within region s.pick) (ha : region.Agree m.run.rules rules) (h : Walks s m m') :
    ∃ rules', region.Agree m'.run.rules rules' ∧
      Walks s (m.withRules rules) (m'.withRules rules') := by
  induction h with
  | refl => exact ⟨rules, ha, .refl _⟩
  | tail hwalk hstep ih =>
    obtain ⟨before, hbefore, hsame⟩ := ih
    obtain ⟨after, hafter, hnext⟩ := (hm.walks hmodifiers hwalk).next_withRules hbefore hstep
    exact ⟨after, hafter, hsame.trans (.single hnext)⟩

end Machine

/-! ## Whole expansions -/

namespace Grammar

variable {g : Grammar} {pick : Pick σ} {selector : σ} {rule : Text}

/-- An expansion that starts inside a region asks for symbols only that the region sees, and is the
same with other rules that agree there. -/
theorem flatten_of_agree {region : Region g.rules} (htable : RuleTable.WellFormedRules g.rules)
    (hmodifiers : Registry.KeepsPlain g.modifiers) (hpick : pick.Offers selector)
    (hrule : region.Encloses rule) {rules : RuleTable} (ha : region.Agree g.rules rules) :
    let o := g.flatten pick selector rule
    let other := ({ g with rules } : Grammar).flatten pick selector rule
    (∀ symbol candidates choice, .picked symbol candidates choice ∈ o.events →
      region.Sees symbol) ∧
    other.result = o.result ∧ other.events = o.events ∧ other.selector = o.selector := by
  intro o other
  have hstart : (Machine.start g selector rule).Within region pick := by
    refine ⟨fun _ => hrule, fun f hf => (List.not_mem_nil hf).elim, ?_, ?_, ?_, hpick⟩
    · exact fun _ v hv => (List.not_mem_nil hv).elim
    · exact fun _ name candidates hsees hget inner hinner =>
        Region.encloses_of_get? htable hsees hget hinner
    · exact fun e he => (List.not_mem_nil he).elim
  have hpicked : ∀ m, Walks (g.setting pick) (.start g selector rule) m →
      ∀ symbol candidates choice, .picked symbol candidates choice ∈ m.run.events →
        region.Sees symbol := by
    intro m hw symbol candidates choice hmem
    have hwithin := hstart.walks (s := g.setting pick) hmodifiers hw
    exact hwithin.run.trace _ (List.mem_reverse.1 hmem)
  rcases g.walks_flatten pick selector rule with ⟨text, run, hw, ho⟩ | ⟨e, run, hw, ho⟩
  · obtain ⟨rules', -, hw'⟩ := hstart.walks_withRules (s := g.setting pick) hmodifiers ha hw
    have ho' : other = _ := flatten_of_walks_text (g := { g with rules }) hw'
    rw [show o = _ from ho, ho']
    exact ⟨hpicked _ hw, rfl, rfl, rfl⟩
  · obtain ⟨rules', -, hw'⟩ := hstart.walks_withRules (s := g.setting pick) hmodifiers ha hw
    have ho' : other = _ := flatten_of_walks_failure (g := { g with rules }) hw'
    rw [show o = _ from ho, ho']
    exact ⟨hpicked _ hw, rfl, rfl, rfl⟩

/-- A symbol that is reported to be unreachable is never used from the start: the selector is not
asked for it, and without the reported symbols the expansion comes to the same text or error, asks
the selector the same and leaves it in the same state. -/
theorem flatten_without_unreachable (g : Grammar) (pick : Pick σ) (selector : σ)
    (knows : Option (Text → Bool)) (file : Option Text) {origin : Text}
    (htable : RuleTable.WellFormedRules g.rules) (horigin : SymbolName origin)
    (hin : g.rules.contains origin = true) (hmodifiers : Registry.KeepsPlain g.modifiers)
    (hpick : pick.Offers selector) :
    let findings := lint g.rules knows (some origin) file
    let code := (LintFault.unreachableSymbol origin).code
    let pruned := { g with rules := g.rules.without (Finding.reported findings code) }
    let o := g.flatten pick selector ('#' :: origin ++ ['#'])
    let o' := pruned.flatten pick selector ('#' :: origin ++ ['#'])
    (∀ symbol candidates choice, .picked symbol candidates choice ∈ o.events →
      ¬ Finding.Reports findings code symbol) ∧
    o'.result = o.result ∧ o'.events = o.events ∧ o'.selector = o.selector := by
  intro findings code pruned o o'
  have hrule : (Region.reachable g.rules origin).Encloses ('#' :: origin ++ ['#']) :=
    Region.encloses_hash_symbol horigin hin (Region.mem_reachable hin)
  obtain ⟨hpicked, hsame⟩ := flatten_of_agree htable hmodifiers hpick hrule
    (Region.agree_without_reported g.rules knows file origin)
  refine ⟨fun symbol candidates choice hmem hreports => ?_, hsame⟩
  obtain ⟨-, hsymbol, hn⟩ := (reports_unreachable_iff g.rules knows file origin symbol).1 hreports
  exact hn (hpicked symbol candidates choice hmem hsymbol)

/-- A tale in which a villain is written of that no part of the tale leads to. -/
def villainTale : Grammar where
  rules := .ofList [("tale".toList, ["#[hero:#name.loud#]deed#".toList]),
    ("deed".toList, ["#hero# sees #name#; #[aside]hero# sleeps".toList]),
    ("aside".toList, ["#[mood:calm]mood#".toList]),
    ("name".toList, ["Anna".toList, "Bob".toList]),
    ("villain".toList, ["#name# the #mood#".toList, "#curse#".toList]),
    ("curse".toList, ["#[hero:nobody]villain#".toList])]
  modifiers := .loud
  keepsBindings := true

/-- The villain and the curse are reported, and the tale is told without them. -/
theorem villainTale_without_villain :
    let pick := (Selector.pick : Pick (Selector MersenneTwister))
    let findings := lint villainTale.rules none (some "Tale".toList) none
    let code := (LintFault.unreachableSymbol "Tale".toList).code
    let pruned : Grammar :=
      { villainTale with rules := villainTale.rules.without (Finding.reported findings code) }
    let o := villainTale.flatten pick (.sequential ∅) "#Tale#".toList
    let o' := pruned.flatten pick (.sequential ∅) "#Tale#".toList
    (RuleTable.WellFormedRules villainTale.rules ∧ SymbolName "Tale".toList ∧
      villainTale.rules.contains "Tale".toList = true ∧
      Registry.KeepsPlain villainTale.modifiers ∧ Pick.Offers pick (.sequential ∅)) ∧
    (∀ symbol ∈ ["villain".toList, "curse".toList],
      Finding.Reports findings code symbol ∧ pruned.rules.get? symbol = none) ∧
    o.result.toOption = some "Anna! sees Bob; Anna! sleeps".toList ∧
    (∀ symbol candidates choice, .picked symbol candidates choice ∈ o.events →
      ¬ Finding.Reports findings code symbol) ∧
    o'.result = o.result ∧ o'.events = o.events ∧ o'.selector = o.selector := by
  intro pick findings code pruned o o'
  have htable : RuleTable.WellFormedRules villainTale.rules := by
    unfold RuleTable.WellFormedRules
    decide +kernel
  have hname : SymbolName "Tale".toList := by decide +kernel
  have hin : villainTale.rules.contains "Tale".toList = true := by decide +kernel
  have hpick : Pick.Offers pick (.sequential ∅) := (chooses_sequential ∅).offers
  have hreports : ∀ symbol ∈ ["villain".toList, "curse".toList],
      Finding.Reports findings code symbol := by
    simp only [findings, code, reports_unreachable_iff]
    decide +kernel
  have hremoved : ∀ symbol ∈ ["villain".toList, "curse".toList],
      Finding.Reports findings code symbol ∧ pruned.rules.get? symbol = none := by
    intro symbol hmem
    have hsymbol := hreports symbol hmem
    exact ⟨hsymbol, RuleTable.get?_without_eq_none (NameMap.wellFormed_ofList _)
      ((Finding.reports_iff findings code symbol).1 hsymbol)⟩
  have htext : o.result.toOption = some "Anna! sees Bob; Anna! sleeps".toList := by decide +kernel
  have hrule : '#' :: "Tale".toList ++ ['#'] = "#Tale#".toList := by decide +kernel
  have hsame := villainTale.flatten_without_unreachable pick (.sequential ∅) none none htable hname
    hin keepsPlain_loud hpick
  rw [hrule] at hsame
  exact ⟨⟨htable, hname, hin, keepsPlain_loud, hpick⟩, hremoved, htext, hsame⟩

end Grammar

end TextGrammar
