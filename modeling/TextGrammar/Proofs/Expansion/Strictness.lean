import TextGrammar.Proofs.Expansion.Congruence

/-!
# Strict and lenient expansions

A strict expansion fails where a lenient one gives its only warning; up to there the two are one
run. What expands within the depth limit is therefore told by the strict expansion alone.

## Main definitions

* `Calm` — a step that never fails, warns of nothing and leaves it open whether the limit is passed.
* `Matches` — a lenient step goes on where a strict one fails, and else does the same.
* `Grammar.Finishes` — a rule expands within the limit.

## Main results

* `Matches.flatten` — the strict and the lenient expansion of a rule match.
* `Grammar.exists_finishes`, `Grammar.Finishes.flatten_eq` — what does not pass the limit, and what
  comes of it.
* `Grammar.flatten_strict_lenient` — what a strict and a lenient expansion of one rule come to.
-/

namespace TextGrammar

variable {σ α β : Type}

/-! ## Steps that have nothing to do with the limit -/

/-- A step that never fails, warns of nothing and leaves it as it is whether the limit has been
passed. -/
def Calm (x : Expansion σ α) : Prop := ∀ run, ∃ a last, x run = .ok a last ∧
  last.truncated = run.truncated ∧ last.depthWarnings = run.depthWarnings

theorem Calm.pure (a : α) : Calm (pure a : Expansion σ α) := fun run => ⟨a, run, rfl, rfl, rfl⟩

theorem calm_resolve (s : Setting σ) (symbol : Text) : Calm (resolve s symbol) := by
  intro run
  cases hb : run.bound.get? symbol with
  | some value => exact ⟨value, run, resolve_of_bound hb, rfl, rfl⟩
  | none =>
    cases hr : run.rules.get? symbol with
    | some candidates => exact ⟨_, _, resolve_of_candidates hb hr, rfl, rfl⟩
    | none => exact ⟨symbol, run, resolve_of_unknown hb hr, rfl, rfl⟩

theorem calm_bind (keeps : Bool) (name value : Text) :
    Calm (modify (·.bind keeps name value) : Expansion σ PUnit) :=
  fun run => ⟨(), run.bind keeps name value, rfl, rfl, rfl⟩

theorem calm_record_unknownModifier (name reference : Text) :
    Calm (modify (·.record (.unknownModifier name reference)) : Expansion σ PUnit) :=
  fun run => ⟨(), run.record (.unknownModifier name reference), rfl, rfl, rfl⟩

/-! ## A strict and a lenient expansion -/

/-- A strict step `x` and a lenient step `y`: within the limit they do the same; where `x` fails `y`
warns of the same rule and passes the limit; once the limit is passed `y` never warns again. -/
structure Matches (x y : Expansion σ α) : Prop where
  /-- An answer of the strict step is the answer of the lenient one. -/
  within {run last : Run σ} {a : α} : run.truncated = false → x run = .ok a last →
    y run = .ok a last ∧ last.truncated = false ∧ last.depthWarnings = run.depthWarnings
  /-- A failure of the strict step is the one warning of the lenient one. -/
  beyond {run stop : Run σ} {e : DepthExceeded} : run.truncated = false → x run = .error e stop →
    ∃ a last, y run = .ok a last ∧ last.truncated = true ∧
      last.depthWarnings = e :: run.depthWarnings
  /-- After the warning the lenient step goes on without another one. -/
  after {run : Run σ} : run.truncated = true → ∃ a last, y run = .ok a last ∧
    last.truncated = true ∧ last.depthWarnings = run.depthWarnings

namespace Matches

/-- A calm step is the same in a strict and in a lenient expansion. -/
theorem of_calm {x : Expansion σ α} (hx : Calm x) : Matches x x where
  within := by
    intro run last a hr h
    obtain ⟨a', last', h', ht, hw⟩ := hx run
    rw [h] at h'
    cases h'
    exact ⟨h, ht.trans hr, hw⟩
  beyond := by
    intro run stop e _ h
    obtain ⟨a, last, h', _⟩ := hx run
    rw [h] at h'
    cases h'
  after := by
    intro run hr
    obtain ⟨a, last, h, ht, hw⟩ := hx run
    exact ⟨a, last, h, ht.trans hr, hw⟩

theorem sequence {x y : Expansion σ α} {f g : α → Expansion σ β} (h : Matches x y)
    (hf : ∀ a, Matches (f a) (g a)) : Matches (x >>= f) (y >>= g) where
  within := by
    intro run last b hr hb
    obtain ⟨a, mid, ha, hfa⟩ := Expansion.exists_of_run_bind_eq_ok hb
    obtain ⟨hy, hmid, hwmid⟩ := h.within hr ha
    obtain ⟨hg, hlast, hwlast⟩ := (hf a).within hmid hfa
    exact ⟨(Expansion.run_bind_of_ok hy g).trans hg, hlast, hwlast.trans hwmid⟩
  beyond := by
    intro run stop e hr he
    cases hx : x run with
    | ok a mid =>
      -- The second step fails: up to it the two expansions are one.
      rw [Expansion.run_bind_of_ok hx] at he
      obtain ⟨hy, hmid, hwmid⟩ := h.within hr hx
      obtain ⟨b, last, hg, hlast, hwlast⟩ := (hf a).beyond hmid he
      exact ⟨b, last, (Expansion.run_bind_of_ok hy g).trans hg, hlast, by rw [hwlast, hwmid]⟩
    | error e' stop' =>
      -- The first step fails: the lenient second step runs after the warning.
      rw [Expansion.run_bind_of_error hx] at he
      cases he
      obtain ⟨a, mid, hy, hmid, hwmid⟩ := h.beyond hr hx
      obtain ⟨b, last, hg, hlast, hwlast⟩ := (hf a).after hmid
      exact ⟨b, last, (Expansion.run_bind_of_ok hy g).trans hg, hlast, by rw [hwlast, hwmid]⟩
  after := by
    intro run hr
    obtain ⟨a, mid, hy, hmid, hwmid⟩ := h.after hr
    obtain ⟨b, last, hg, hlast, hwlast⟩ := (hf a).after hmid
    exact ⟨b, last, (Expansion.run_bind_of_ok hy g).trans hg, hlast, hwlast.trans hwmid⟩

theorem ite_truncated {x y x' y' : Expansion σ α} (h : Matches x y) (h' : Matches x' y') :
    Matches (do if (← get).truncated then x else x') (do if (← get).truncated then y else y') where
  within := by
    intro run last a hr ha
    rw [Expansion.run_ite_truncated, if_neg (by simp [hr])] at ha ⊢
    exact h'.within hr ha
  beyond := by
    intro run stop e hr he
    rw [Expansion.run_ite_truncated, if_neg (by simp [hr])] at he
    obtain ⟨a, last, hy, hl⟩ := h'.beyond hr he
    exact ⟨a, last, by rw [Expansion.run_ite_truncated, if_neg (by simp [hr]), hy], hl⟩
  after := by
    intro run hr
    obtain ⟨a, last, hy, hl⟩ := h.after hr
    exact ⟨a, last, by rw [Expansion.run_ite_truncated, if_pos hr, hy], hl⟩

/-- A strict expansion stops with a failure where a lenient one stops with a warning. -/
theorem tooDeep (s : Setting σ) (rule : Text) :
    Matches (tooDeep { s with strict := true } rule) (tooDeep { s with strict := false } rule) where
  within := by
    intro run last a _ h
    rw [tooDeep_of_strict rfl] at h
    cases h
  beyond := by
    intro run stop e hr h
    rw [tooDeep_of_strict rfl] at h
    cases h
    exact ⟨rule, _, tooDeep_of_not_truncated rfl rule hr, rfl, rfl⟩
  after := by
    intro run hr
    exact ⟨rule, run, tooDeep_of_truncated rfl rule hr, hr, rfl⟩

/-- Everything an expansion does is matched when only its strictness changes. -/
theorem congruence (s : Setting σ) :
    Congruence { s with strict := true } { s with strict := false } Matches where
  answer a := of_calm (.pure a)
  sequence := sequence
  lookUp symbol := of_calm (calm_resolve { s with strict := true } symbol)
  write name value := of_calm (calm_bind s.keepsBindings name value)
  note name reference := of_calm (calm_record_unknownModifier name reference)
  modifiers _ := rfl

/-- The strict and the lenient expansion of a rule match. -/
theorem flatten (s : Setting σ) (levels : Nat) (rule : Text) :
    Matches (flatten { s with strict := true } levels rule)
      (flatten { s with strict := false } levels rule) :=
  (congruence s).flatten (tooDeep s) ite_truncated levels rule

end Matches

/-- A lenient expansion gives an answer, whatever happened before it. -/
theorem exists_ok_of_lenient {s : Setting σ} (hs : s.strict = false) (levels : Nat) (rule : Text)
    (run : Run σ) : ∃ text last, flatten s levels rule run = .ok text last := by
  have hm := Matches.flatten s levels rule
  have hlenient : { s with strict := false } = s := by rw [← hs]
  rw [hlenient] at hm
  cases ht : run.truncated with
  | true =>
    obtain ⟨text, last, hlast, -⟩ := hm.after ht
    exact ⟨text, last, hlast⟩
  | false =>
    cases hx : flatten { s with strict := true } levels rule run with
    | ok text last => exact ⟨text, last, (hm.within ht hx).1⟩
    | error e stop =>
      obtain ⟨text, last, hlast, -⟩ := hm.beyond ht hx
      exact ⟨text, last, hlast⟩

/-! ## Expansions within the limit -/

namespace Grammar

/-- A rule of a grammar expands within the limit, to a text and a run. -/
def Finishes (g : Grammar) (pick : Pick σ) (selector : σ) (rule text : Text) (run : Run σ) : Prop :=
  flattenTop { g.setting pick with strict := true } rule (g.start selector) = .ok text run

variable {g : Grammar} {pick : Pick σ} {selector : σ} {rule text : Text} {run : Run σ}

theorem setting_with_strict (g : Grammar) (pick : Pick σ) (strict : Bool) :
    { g.setting pick with strict := strict } = { g with strict := strict }.setting pick := rfl

/-- What expands within the limit does so whether passing the limit is an error or not, and there
is no warning. -/
theorem Finishes.flatten_eq (h : g.Finishes pick selector rule text run) :
    g.flatten pick selector rule = g.finished text run ∧ run.depthWarnings = [] := by
  have hm := Matches.flatten (g.setting pick) (g.setting pick).levels rule
  obtain ⟨hl, -, hw⟩ := hm.within (show (g.start selector).truncated = false from rfl) h
  refine ⟨Grammar.flatten_of_ok ?_, hw⟩
  obtain ⟨rules, modifiers, keeps, maxDepth, strict⟩ := g
  cases strict with
  | true => exact h
  | false => exact hl

theorem Finishes.not_passesLimit (h : g.Finishes pick selector rule text run) :
    ¬ (g.flatten pick selector rule).PassesLimit := by
  obtain ⟨ho, hw⟩ := h.flatten_eq
  rw [ho]
  rintro (⟨e, he⟩ | hp)
  · cases he
  · rw [depthWarnings_finished, hw] at hp
    exact hp rfl

/-- A lenient expansion that passes the limit gives one warning: the failure of the strict one. -/
theorem lenient_of_error {e : DepthExceeded} {stop : Run σ} (hg : g.strict = false)
    (h : flattenTop { g.setting pick with strict := true } rule (g.start selector)
      = .error e stop) :
    ∃ text, (g.flatten pick selector rule).result = .ok text ∧
      (g.flatten pick selector rule).depthWarnings = [e] := by
  have hm := Matches.flatten (g.setting pick) (g.setting pick).levels rule
  obtain ⟨text, last, hl, -, hw⟩ := hm.beyond (show (g.start selector).truncated = false from rfl) h
  have hs : { g.setting pick with strict := false } = g.setting pick := by
    rw [setting_with_strict, ← hg]
  rw [hs] at hl
  rw [Grammar.flatten_of_ok (g := g) hl]
  refine ⟨text, rfl, ?_⟩
  rw [depthWarnings_finished, hw]
  rfl

/-- A lenient expansion ends with a text. -/
theorem exists_result_of_lenient (hg : g.strict = false) (pick : Pick σ) (selector : σ)
    (rule : Text) : ∃ text, (g.flatten pick selector rule).result = .ok text := by
  obtain ⟨text, last, hlast⟩ := exists_ok_of_lenient (s := g.setting pick) hg
    (g.setting pick).levels rule (g.start selector)
  exact ⟨text, by rw [Grammar.flatten_of_ok hlast]; rfl⟩

/-- What does not pass the limit expands within it. -/
theorem exists_finishes (h : ¬ (g.flatten pick selector rule).PassesLimit) :
    ∃ text run, g.Finishes pick selector rule text run := by
  cases hx : flattenTop { g.setting pick with strict := true } rule (g.start selector) with
  | ok text run => exact ⟨text, run, hx⟩
  | error e stop =>
    refine absurd ?_ h
    cases hg : g.strict with
    | true =>
      have hs : { g.setting pick with strict := true } = g.setting pick := by
        rw [setting_with_strict, ← hg]
      rw [hs] at hx
      rw [Grammar.flatten_of_error hx]
      exact .inl ⟨e, rfl⟩
    | false =>
      obtain ⟨text, -, hw⟩ := lenient_of_error hg hx
      exact .inr (by rw [hw]; simp)

/-- A strict expansion that passes the limit fails. -/
theorem strict_of_error {e : DepthExceeded} {stop : Run σ}
    (h : flattenTop { g.setting pick with strict := true } rule (g.start selector)
      = .error e stop) :
    ({ g with strict := true }.flatten pick selector rule).result = .error e := by
  have hf : { g with strict := true }.flatten pick selector rule
      = { g with strict := true }.failed e stop := Grammar.flatten_of_error h
  rw [hf]
  rfl

/-- A strict and a lenient expansion of one rule from one state. The strict one fails exactly when
the lenient one passes the limit; then it names the rule of the one warning that the lenient one
gives. When the strict one ends with a text, the lenient one does the same, event by event: the same
calls of the selector with the same answers, the same rules afterwards, and no warning. -/
theorem flatten_strict_lenient (g : Grammar) (pick : Pick σ) (selector : σ) (rule : Text) :
    let strict := { g with strict := true }.flatten pick selector rule
    let lenient := { g with strict := false }.flatten pick selector rule
    ((∃ e, strict.result = .error e) ↔ lenient.PassesLimit) ∧
    (∃ text, lenient.result = .ok text) ∧
    (∀ e, strict.result = .error e →
      e.finding.stage = .expanding ∧ e.finding.code = "E_MAX_DEPTH".toList ∧
      e.finding.path = some e.rule ∧
      lenient.depthWarnings = [e] ∧ lenient.warningLines = [e.warning]) ∧
    (∀ text, strict.result = .ok text →
      lenient.result = .ok text ∧ lenient.events = strict.events ∧
      lenient.selector = strict.selector ∧ lenient.grammar.rules = strict.grammar.rules ∧
      lenient.depthWarnings = [] ∧ lenient.warningLines = []) := by
  intro strict lenient
  have hlines : lenient.warningLines = lenient.depthWarnings.map DepthExceeded.warning :=
    lenient.warningLines_eq
  cases hx : flattenTop { g.setting pick with strict := true } rule (g.start selector) with
  | ok text run =>
    -- Within the limit both come to the same.
    have hf : { g with strict := false }.Finishes pick selector rule text run := hx
    have hf' : { g with strict := true }.Finishes pick selector rule text run := hx
    have hs : strict = { g with strict := true }.finished text run := hf'.flatten_eq.1
    have hl : lenient = { g with strict := false }.finished text run := hf.flatten_eq.1
    have hw : lenient.depthWarnings = [] := by
      rw [hl, depthWarnings_finished, hf.flatten_eq.2]
      rfl
    have hok : strict.result = .ok text := by rw [hs]; rfl
    refine ⟨⟨?_, fun hp => absurd hp hf.not_passesLimit⟩, ⟨text, by rw [hl]; rfl⟩, ?_, ?_⟩
    · rintro ⟨e, he⟩
      rw [hok] at he
      cases he
    · intro e he
      rw [hok] at he
      cases he
    · intro text' ht
      rw [hok] at ht
      cases ht
      rw [hlines, hw, hl, hs]
      exact ⟨rfl, rfl, rfl, rfl, rfl, rfl⟩
  | error e stop =>
    -- Past the limit the failure is the warning.
    have hs : strict.result = .error e := strict_of_error hx
    obtain ⟨text, hl, hw⟩ : ∃ text, lenient.result = .ok text ∧ lenient.depthWarnings = [e] :=
      lenient_of_error (g := { g with strict := false }) rfl hx
    refine ⟨⟨fun _ => .inr (by rw [hw]; simp), fun _ => ⟨e, hs⟩⟩, ⟨text, hl⟩, ?_, ?_⟩
    · intro e' he
      rw [hs] at he
      cases he
      exact ⟨rfl, rfl, rfl, hw, by rw [hlines, hw]; rfl⟩
    · intro text' ht
      rw [hs] at ht
      cases ht

end Grammar

end TextGrammar
