import TextGrammar.Proofs.Expansion.Machine

/-!
# Expansions that break off

A modifier may fail on the text that it is given. Then the expansion breaks off, and nothing comes
of it, not even a failure that could be reported. `flatten` goes on with that text as it is, so what
it comes to tells of an expansion only if it does not break off. In that case it does not matter
what is made of the texts that modifiers fail on.

## Main definitions

* `Registry.changed` — what modifiers make of a text one after the other, or the key that is missed.
* `Machine.missed?` — the key that the next step misses.
* `Grammar.BreaksOff` — an expansion comes to such a step.
* `Grammar.EndsWhole` — it ends after some steps, and none of them fails.
* `Modifier.Extends` — one modifier does all that another one does.

## Main results

* `Grammar.flatten_of_extends` — an expansion that does not break off, with modifiers that do more.
* `Grammar.not_breaksOff_iff` — how to see that an expansion does not break off.
-/

namespace TextGrammar

variable {σ : Type}

/-- What modifiers make of a text, from left to right, or the key that the first of them misses that
fails; a name that no modifier has changes nothing. -/
def Registry.changed (modifiers : Registry) (names : List Text) (t : Text) : Except Text Text :=
  names.foldlM (fun t name => (modifiers.get? name).elim (.ok t) fun m => m.change t) t

theorem Registry.exists_of_changed_cons {modifiers : Registry} {name : Text} {names : List Text}
    {t u : Text} (h : modifiers.changed (name :: names) t = .ok u) :
    ∃ v, (modifiers.get? name).elim (.ok t) (·.change t) = .ok v ∧
      modifiers.changed names v = .ok u := by
  rw [changed, List.foldlM_cons] at h
  cases hv : (modifiers.get? name).elim (.ok t) (·.change t) with
  | error key =>
    rw [hv] at h
    cases h
  | ok v =>
    rw [hv] at h
    exact ⟨v, rfl, h⟩

/-- Where modifiers do not fail they make the same of a text. -/
theorem Setting.modified_eq_of_changed {s : Setting σ} {names : List Text} {t u : Text}
    (h : s.modifiers.changed names t = .ok u) : s.modified names t = u := by
  induction names generalizing t with
  | nil => exact Except.ok.inj h
  | cons name names ih =>
    obtain ⟨v, hv, hrest⟩ := Registry.exists_of_changed_cons h
    rw [modified, List.foldl_cons]
    cases hm : s.modifiers.get? name with
    | none =>
      rw [hm] at hv
      cases hv
      exact ih hrest
    | some m =>
      rw [hm] at hv
      rw [Option.elim_some, Modifier.apply_of_change hv]
      exact ih hrest

/-! ## Steps that fail -/

/-- The key that the next step misses: a modifier of a reference fails. -/
def Machine.missed? (s : Setting σ) : Machine σ → Option Text
  | ⟨.text t, .symbol _ r :: _, _⟩ =>
    match s.modifiers.changed r.modifiers t with
    | .ok _ => none
    | .error key => some key
  | _ => none

/-- An expansion breaks off: it comes to a modifier that fails. -/
def Grammar.BreaksOff (g : Grammar) (pick : Pick σ) (selector : σ) (rule : Text) : Prop :=
  ∃ m, Walks (g.setting pick) (.start g selector rule) m ∧ m.missed? (g.setting pick) ≠ none

/-! ## Modifiers that do more -/

/-- `m'` changes the texts that `m` changes, and just so. -/
def Modifier.Extends (m' m : Modifier) : Prop := ∀ t u, m.change t = .ok u → m'.change t = .ok u

/-- The same names have modifiers, and those of `modifiers'` do all that those of `modifiers` do. -/
def Registry.Extends (modifiers' modifiers : Registry) : Prop :=
  ∀ name, Option.Rel Modifier.Extends (modifiers'.get? name) (modifiers.get? name)

namespace Registry.Extends

variable {s : Setting σ} {modifiers' modifiers : Registry}

theorem changed (h : modifiers'.Extends modifiers) {names : List Text} {t u : Text}
    (hu : modifiers.changed names t = .ok u) : modifiers'.changed names t = .ok u := by
  induction names generalizing t with
  | nil => exact hu
  | cons name names ih =>
    obtain ⟨v, hv, hrest⟩ := exists_of_changed_cons hu
    have hfirst : (modifiers'.get? name).elim (.ok t) (·.change t) = .ok v := by
      have hname := h name
      generalize modifiers'.get? name = m', modifiers.get? name = m at hname hv
      cases hname with
      | none => exact hv
      | some hm => exact hm t v hv
    rw [Registry.changed, List.foldlM_cons, hfirst]
    exact ih hrest

theorem notes (h : modifiers'.Extends s.modifiers) (reference : Text) (names : List Text) :
    ({ s with modifiers := modifiers' } : Setting σ).notes reference names
      = s.notes reference names := by
  have hname : ∀ name, (modifiers'.get? name).isNone = (s.modifiers.get? name).isNone := by
    intro name
    have hrel := h name
    generalize modifiers'.get? name = m', s.modifiers.get? name = m at hrel
    cases hrel <;> rfl
  simp only [Setting.notes, hname]

/-- A step that does not fail is taken just so with modifiers that do more. -/
theorem next (h : modifiers'.Extends s.modifiers) {m : Machine σ} (hm : m.missed? s = none) :
    m.next { s with modifiers := modifiers' } = m.next s := by
  obtain ⟨focus, frames, run⟩ := m
  cases focus with
  | rule levels rule => cases levels <;> rfl
  | parts levels before nodes => rcases nodes with _ | ⟨_ | _ | _, _⟩ <;> rfl
  | bindings levels bindings r => cases bindings <;> rfl
  | failure e => rfl
  | text t =>
    rcases frames with _ | ⟨_ | _ | _ | ⟨levels, r⟩, frames⟩
    case cons.symbol =>
      rw [Machine.next_symbol, Machine.next_symbol, h.notes]
      cases hchanged : s.modifiers.changed r.modifiers t with
      | error key => simp [Machine.missed?, hchanged] at hm
      | ok u =>
        rw [s.modified_eq_of_changed hchanged, Setting.modified_eq_of_changed (h.changed hchanged)]
    all_goals rfl

/-- As long as no step fails, all are taken just so. -/
theorem walks (h : modifiers'.Extends s.modifiers) {m last : Machine σ} (hlast : Walks s m last)
    (hm : ∀ mid, Walks s m mid → mid.missed? s = none) :
    Walks { s with modifiers := modifiers' } m last := by
  induction hlast with
  | refl => exact Walks.refl m
  | tail hwalk hstep ih => exact ih.trans (.single ((h.next (hm _ hwalk)).trans hstep))

end Registry.Extends

namespace Grammar

variable {g : Grammar} {pick : Pick σ} {selector : σ} {rule : Text}

/-- An expansion that does not break off is the same with modifiers that do more. -/
theorem flatten_of_extends {modifiers' : Registry} (h : modifiers'.Extends g.modifiers)
    (hbreak : ¬ g.BreaksOff pick selector rule) :
    let whole := g.flatten pick selector rule
    ({ g with modifiers := modifiers' } : Grammar).flatten pick selector rule
      = { whole with grammar := { whole.grammar with modifiers := modifiers' } } := by
  intro whole
  have hmissed : ∀ mid, Walks (g.setting pick) (.start g selector rule) mid →
      mid.missed? (g.setting pick) = none :=
    fun mid hmid => Classical.byContradiction fun hne => hbreak ⟨mid, hmid, hne⟩
  rcases g.walks_flatten pick selector rule with ⟨text, run, hw, ho⟩ | ⟨e, run, hw, ho⟩
  · have hw' := Registry.Extends.walks (s := g.setting pick) h hw hmissed
    rw [show whole = _ from ho]
    exact flatten_of_walks_text hw'
  · have hw' := Registry.Extends.walks (s := g.setting pick) h hw hmissed
    rw [show whole = _ from ho]
    exact flatten_of_walks_failure hw'

end Grammar

/-! ## Following an expansion to its end -/

/-- After the end nothing changes. -/
theorem Machine.after_of_end {s : Setting σ} {m : Machine σ} {steps more : Nat}
    (hend : (m.after s steps).next s = none) (hle : steps ≤ more) :
    m.after s more = m.after s steps := by
  induction steps generalizing m more with
  | zero =>
    cases more with
    | zero => rfl
    | succ more =>
      have hstop : m.next s = none := hend
      rw [after, after, hstop, Option.elim_none]
  | succ steps ih =>
    obtain ⟨more, rfl⟩ : ∃ k, more = k + 1 := Nat.exists_eq_add_one.2 (by omega)
    rw [after] at hend
    rw [after, after]
    cases h : m.next s with
    | none => rfl
    | some m' =>
      rw [h] at hend
      exact ih hend (Nat.le_of_succ_le_succ hle)

namespace Grammar

variable {g : Grammar} {pick : Pick σ} {selector : σ} {rule : Text}

/-- An expansion ends after some steps, and no step fails. -/
def EndsWhole (g : Grammar) (pick : Pick σ) (selector : σ) (rule : Text) (steps : Nat) : Prop :=
  let s := g.setting pick
  let start := Machine.start g selector rule
  (start.after s steps).next s = none ∧ ∀ k ≤ steps, (start.after s k).missed? s = none

instance (g : Grammar) (pick : Pick σ) (selector : σ) (rule : Text) (steps : Nat) :
    Decidable (g.EndsWhole pick selector rule steps) :=
  inferInstanceAs (Decidable (_ ∧ _))

theorem EndsWhole.not_breaksOff {steps : Nat} (h : g.EndsWhole pick selector rule steps) :
    ¬ g.BreaksOff pick selector rule := by
  rintro ⟨m, hwalk, hm⟩
  obtain ⟨k, rfl⟩ := hwalk.exists_steps
  rcases Nat.le_total k steps with hle | hle
  · exact hm (h.2 k hle)
  · rw [Machine.after_of_end h.1 hle] at hm
    exact hm (h.2 steps (Nat.le_refl steps))

/-- An expansion does not break off when it ends and no step fails; every expansion ends. -/
theorem not_breaksOff_iff :
    ¬ g.BreaksOff pick selector rule ↔ ∃ steps, g.EndsWhole pick selector rule steps := by
  constructor
  · intro h
    obtain ⟨last, hlast, hend, -⟩ := g.exists_last_point pick selector rule
    obtain ⟨steps, rfl⟩ := hlast.exists_steps
    refine ⟨steps, hend, fun k _ => Classical.byContradiction fun hm => h ⟨_, ?_, hm⟩⟩
    exact Walks.after (g.setting pick) k _
  · rintro ⟨steps, h⟩
    exact h.not_breaksOff

end Grammar

end TextGrammar
