import TextGrammar.Proofs.Expansion.Machine

/-!
# How deep an expansion goes

The rules that are being gone through at a point of an expansion are those with parts pending. Their
number and the levels that are left always make up the levels of the whole expansion, so a rule is
passed over for its depth exactly when more rules lie around it than the limit allows. No rule is
reached any deeper, and the expansion comes to an end, whatever the grammar holds.

## Main definitions

* `Machine.depth` — how many rules lie around a point.
* `Machine.LevelsFit` — depth and levels make up the levels of the expansion, here and in all that
  is pending; every step keeps it.

## Main results

* `Machine.LevelsFit.next`, `Machine.LevelsFit.walks` — one step, and any number of steps.
* `Machine.exists_rule_of_next_failure` — an expansion fails at a rule that is passed over.
* `Grammar.depth_of_walks`, `Grammar.exists_last_step`, `Grammar.exists_rule_of_error` — how deep an
  expansion goes, where it ends, and where it fails.
* `Grammar.flatten_ends` — all of this together.
-/

namespace TextGrammar

variable {σ : Type}

/-! ## Depth and levels -/

/-- The number of rules that are being gone through: those with parts pending. -/
def openRules : List Frame → Nat
  | [] => 0
  | .parts .. :: frames => openRules frames + 1
  | .outside _ :: frames => openRules frames
  | .binding .. :: frames => openRules frames
  | .symbol .. :: frames => openRules frames

/-- How many rules lie around a point of an expansion. -/
def Machine.depth (m : Machine σ) : Nat := openRules m.frames

/-- Every pending frame has as many levels left as its depth leaves of `limit`. -/
def FramesFit (limit : Nat) : List Frame → Prop
  | [] => True
  | .parts levels _ _ :: frames => levels + (openRules frames + 1) = limit ∧ FramesFit limit frames
  | .outside _ :: frames => FramesFit limit frames
  | .binding levels _ _ _ :: frames => levels + openRules frames = limit ∧ FramesFit limit frames
  | .symbol levels _ :: frames => levels + openRules frames = limit ∧ FramesFit limit frames

/-- What is worked on at a depth has as many levels left as the depth leaves of `limit`; the parts
of a rule lie a level deeper than the rule. -/
def Focus.Fits (limit depth : Nat) : Focus → Prop
  | .rule levels _ => levels + depth = limit
  | .parts levels _ _ => levels + (depth + 1) = limit
  | .bindings levels _ _ => levels + depth = limit
  | .text _ => True
  | .failure _ => True

namespace Machine

/-- Depth and levels make up `limit`, at a point of an expansion and in all that is pending. -/
structure LevelsFit (limit : Nat) (m : Machine σ) : Prop where
  focus : m.focus.Fits limit m.depth
  frames : FramesFit limit m.frames

variable {s : Setting σ} {m m' : Machine σ} {limit : Nat}

/-- A step that finds a text or fails leaves what is pending as it is, or nothing. -/
theorem levelsFit_settle_text {frames : List Frame} (h : FramesFit limit frames)
    (result : EStateM.Result DepthExceeded (Run σ) Text) :
    (settle frames .text result).LevelsFit limit := by
  cases result with
  | ok text run => exact ⟨trivial, h⟩
  | error e run => exact ⟨trivial, trivial⟩

/-- A step that finds a rule of some levels fits where these levels do. -/
theorem levelsFit_settle_rule {frames : List Frame} {levels : Nat} (h : FramesFit limit frames)
    (hlevels : levels + openRules frames = limit)
    (result : EStateM.Result DepthExceeded (Run σ) Text) :
    (settle frames (.rule levels) result).LevelsFit limit := by
  cases result with
  | ok text run => exact ⟨hlevels, h⟩
  | error e run => exact ⟨trivial, trivial⟩

theorem LevelsFit.next_parts {levels : Nat} {before : Text} {nodes : List Node}
    {frames : List Frame} {run : Run σ}
    (hm : LevelsFit limit ⟨.parts levels before nodes, frames, run⟩)
    (h : (⟨.parts levels before nodes, frames, run⟩ : Machine σ).next s = some m') :
    m'.LevelsFit limit := by
  obtain ⟨hlevels, hframes⟩ := hm
  rcases nodes with _ | ⟨value | b | r, after⟩
  · cases h
    exact ⟨trivial, hframes⟩
  · cases h
    exact ⟨hlevels, hframes⟩
  · cases h
    exact ⟨hlevels, hlevels, hframes⟩
  · cases h
    exact ⟨hlevels, hlevels, hframes⟩

theorem LevelsFit.next_bindings {levels : Nat} {bindings : List Binding} {r : Reference}
    {frames : List Frame} {run : Run σ}
    (hm : LevelsFit limit ⟨.bindings levels bindings r, frames, run⟩)
    (h : (⟨.bindings levels bindings r, frames, run⟩ : Machine σ).next s = some m') :
    m'.LevelsFit limit := by
  obtain ⟨hlevels, hframes⟩ := hm
  cases bindings with
  | cons b more =>
    cases h
    exact ⟨hlevels, hlevels, hframes⟩
  | nil =>
    have hpending : FramesFit limit (.symbol levels r :: frames) := ⟨hlevels, hframes⟩
    cases h
    exact levelsFit_settle_rule hpending hlevels _

theorem LevelsFit.next_text {t : Text} {frames : List Frame} {run : Run σ}
    (hm : LevelsFit limit ⟨.text t, frames, run⟩)
    (h : (⟨.text t, frames, run⟩ : Machine σ).next s = some m') : m'.LevelsFit limit := by
  obtain ⟨-, hframes⟩ := hm
  cases frames with
  | nil => cases h
  | cons f frames =>
    cases f with
    | parts levels before after =>
      cases h
      exact ⟨hframes.1, hframes.2⟩
    | outside b =>
      cases h
      exact ⟨trivial, hframes⟩
    | binding levels b more r =>
      cases h
      exact ⟨hframes.1, hframes.2⟩
    | symbol levels r =>
      cases h
      exact levelsFit_settle_rule hframes.2 hframes.1 _

/-- Every step keeps depth and levels in balance: a level is given away when a rule is gone through
and taken back when its parts are done. -/
theorem LevelsFit.next (hm : m.LevelsFit limit) (h : m.next s = some m') : m'.LevelsFit limit := by
  obtain ⟨focus, frames, run⟩ := m
  cases focus with
  | rule levels rule =>
    obtain ⟨hlevels, hframes⟩ := hm
    rcases next_rule_cases h with ⟨-, rfl⟩ | ⟨-, -, fewer, rfl, rfl⟩ | ⟨-, -, rfl⟩
    · exact ⟨trivial, hframes⟩
    · refine ⟨?_, hframes⟩
      have hdepth : fewer + 1 + openRules frames = limit := hlevels
      show fewer + (openRules frames + 1) = limit
      omega
    · exact levelsFit_settle_text hframes _
  | parts levels before nodes => exact hm.next_parts h
  | bindings levels bindings r => exact hm.next_bindings h
  | text t => exact hm.next_text h
  | failure e => cases h

theorem LevelsFit.walks (hm : m.LevelsFit limit) (h : Walks s m m') : m'.LevelsFit limit :=
  h.invariant (fun _ _ hmid hstep => hmid.next hstep) hm

/-! ## Where an expansion fails -/

/-- In a strict expansion the limit counts as passed at no point: there it fails. -/
theorem truncated_of_walks (hs : s.strict = true) (h : Walks s m m') :
    m'.run.truncated = m.run.truncated := by
  induction h with
  | refl => rfl
  | @tail mid last _ hstep ih =>
    have hchange := change_of_next hstep
    generalize last.run = run at hchange
    cases hchange with
    | limit hlenient _ =>
      rw [hs] at hlenient
      cases hlenient
    | _ => exact ih

/-- A step that fails does so at a rule that is passed over. -/
theorem exists_rule_of_next_failure {e : DepthExceeded} (h : m.next s = some m')
    (hfailure : m'.focus = .failure e) :
    s.strict = true ∧ e.limit = s.maxDepth ∧ ∃ levels, m.focus = .rule levels e.rule ∧
      hasSyntax e.rule = true ∧ (levels = 0 ∨ m.run.truncated = true) := by
  obtain ⟨focus, frames, run⟩ := m
  cases focus with
  | rule levels rule =>
    rcases next_rule_cases h with ⟨-, rfl⟩ | ⟨-, -, fewer, rfl, rfl⟩ | ⟨hr, hover, rfl⟩
    · cases hfailure
    · cases hfailure
    · cases hs : s.strict with
      | true =>
        rw [tooDeep_of_strict hs] at hfailure
        cases hfailure
        exact ⟨rfl, rfl, levels, rfl, hr, hover⟩
      | false =>
        cases ht : run.truncated with
        | true =>
          rw [tooDeep_of_truncated hs rule ht] at hfailure
          cases hfailure
        | false =>
          rw [tooDeep_of_not_truncated hs rule ht] at hfailure
          cases hfailure
  | parts levels before nodes =>
    rcases nodes with _ | ⟨value | b | r, after⟩
    all_goals
      cases h
      cases hfailure
  | bindings levels bindings r =>
    cases bindings with
    | cons b more =>
      cases h
      cases hfailure
    | nil =>
      obtain ⟨value, last, hx, -⟩ := calm_resolve s r.symbol run
      rw [next, hx] at h
      cases h
      cases hfailure
  | text t =>
    cases frames with
    | nil => cases h
    | cons f frames =>
      cases f with
      | symbol levels r =>
        rw [next_symbol] at h
        cases h
        cases hfailure
      | _ =>
        cases h
        cases hfailure
  | failure e => cases h

end Machine

namespace Grammar

variable {g : Grammar} {pick : Pick σ} {selector : σ} {rule : Text}

/-- At every point of an expansion depth and levels make up the levels of the grammar. -/
theorem levelsFit_of_walks {m : Machine σ}
    (h : Walks (g.setting pick) (.start g selector rule) m) :
    m.LevelsFit (g.maxDepth + 1).toNat := by
  have hstart : (Machine.start g selector rule).LevelsFit (g.maxDepth + 1).toNat :=
    ⟨Nat.add_zero _, trivial⟩
  exact hstart.walks h

/-- No rule is reached at a depth of more than one above the limit, or of more than zero when the
limit is negative, and levels run out exactly where the depth passes the limit. -/
theorem depth_of_walks {m : Machine σ} {levels : Nat} {inner : Text}
    (h : Walks (g.setting pick) (.start g selector rule) m) (hfocus : m.focus = .rule levels inner) :
    (m.depth : Int) ≤ max 0 (g.maxDepth + 1) ∧ (levels = 0 ↔ g.maxDepth < m.depth) := by
  have hfit := (levelsFit_of_walks h).focus
  rw [hfocus] at hfit
  have hsum : levels + m.depth = (g.maxDepth + 1).toNat := hfit
  omega

/-- After some number of steps an expansion stands at its text or its error, and does not go on. -/
theorem exists_last_step (g : Grammar) (pick : Pick σ) (selector : σ) (rule : Text) :
    ∃ steps, ((Machine.start g selector rule).after (g.setting pick) steps).next (g.setting pick)
        = none ∧
      match (g.flatten pick selector rule).result with
      | .ok text => ((Machine.start g selector rule).after (g.setting pick) steps).focus = .text text
      | .error e =>
        ((Machine.start g selector rule).after (g.setting pick) steps).focus = .failure e := by
  rcases g.walks_flatten pick selector rule with ⟨text, run, hw, ho⟩ | ⟨e, run, hw, ho⟩
  · obtain ⟨steps, hsteps⟩ := hw.exists_steps
    refine ⟨steps, ?_⟩
    rw [hsteps, ho]
    exact ⟨rfl, rfl⟩
  · obtain ⟨steps, hsteps⟩ := hw.exists_steps
    refine ⟨steps, ?_⟩
    rw [hsteps, ho]
    exact ⟨rfl, rfl⟩

/-- An expansion fails in a strict setting only, at a rule that lies deeper than the limit. -/
theorem exists_rule_of_error {e : DepthExceeded}
    (he : (g.flatten pick selector rule).result = .error e) :
    g.strict = true ∧ e.limit = g.maxDepth ∧ ∃ m levels,
      Walks (g.setting pick) (.start g selector rule) m ∧ m.focus = .rule levels e.rule ∧
      hasSyntax e.rule = true ∧ g.maxDepth < m.depth := by
  rcases g.walks_flatten pick selector rule with ⟨text, run, -, ho⟩ | ⟨e', run, hw, ho⟩
  · rw [ho] at he
    cases he
  · rw [ho] at he
    cases he
    rcases Relation.ReflTransGen.cases_tail hw with heq | ⟨m, hm, hstep⟩
    · cases congrArg Machine.focus heq
    · obtain ⟨hs, hlimit, levels, hfocus, hsyntax, hover⟩ :=
        Machine.exists_rule_of_next_failure hstep rfl
      -- Nothing is passed over but for its depth: the limit is marked as passed in lenient runs only.
      have ht : m.run.truncated = false := Machine.truncated_of_walks hs hm
      have hzero : levels = 0 := hover.resolve_right (by simp [ht])
      exact ⟨hs, hlimit, m, levels, hm, hfocus, hsyntax, (depth_of_walks hm hfocus).2.1 hzero⟩

/-- Every expansion comes to an end after some number of steps, with a text or a failure. No rule is
expanded at a depth of more than one above the limit, or of more than zero when the limit is
negative, and levels run out exactly where the depth passes the limit. A lenient expansion ends with
a text; a strict one may fail instead, with the error for the depth, at a rule with constructs that
lies deeper than the limit. -/
theorem flatten_ends (g : Grammar) (pick : Pick σ) (selector : σ) (rule : Text) :
    let s := g.setting pick
    let start := Machine.start g selector rule
    let o := g.flatten pick selector rule
    (∃ steps, (start.after s steps).next s = none ∧
      match o.result with
      | .ok text => (start.after s steps).focus = .text text
      | .error e => (start.after s steps).focus = .failure e) ∧
    (∀ m levels inner, Walks s start m → m.focus = .rule levels inner →
      (m.depth : Int) ≤ max 0 (g.maxDepth + 1) ∧ (levels = 0 ↔ g.maxDepth < m.depth)) ∧
    (g.strict = false → ∃ text, o.result = .ok text) ∧
    (∀ e, o.result = .error e → g.strict = true ∧ e.limit = g.maxDepth ∧
      e.finding.code = "E_MAX_DEPTH".toList ∧ ∃ m levels, Walks s start m ∧
        m.focus = .rule levels e.rule ∧ hasSyntax e.rule = true ∧ g.maxDepth < m.depth) := by
  intro s start o
  refine ⟨exists_last_step g pick selector rule, fun m levels inner hm hfocus => ?_,
    fun hg => exists_result_of_lenient hg pick selector rule, fun e he => ?_⟩
  · exact depth_of_walks hm hfocus
  · obtain ⟨hs, hlimit, hrule⟩ := exists_rule_of_error he
    exact ⟨hs, hlimit, rfl, hrule⟩

end Grammar

end TextGrammar
