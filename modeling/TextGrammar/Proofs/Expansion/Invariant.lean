import TextGrammar.Proofs.Expansion.Equations

/-!
# Invariants of an expansion

A step keeps an invariant of runs and gives answers of one kind, whenever it gives an answer at all;
or it does give an answer. Such facts compose along a sequence of steps.

## Main definitions

* `Keeps I P x` — the answers of the step `x` satisfy `P`, and the invariant `I` is kept.
* `Ends I P x` — besides, the step does give an answer.
-/

namespace TextGrammar

variable {σ α β : Type}

/-- From a run with the invariant `I`, every answer of the step satisfies `P` and leaves a run with
the invariant. -/
def Keeps (I : Run σ → Prop) (P : α → Prop) (x : Expansion σ α) : Prop :=
  ∀ ⦃run last : Run σ⦄ ⦃a : α⦄, I run → x run = .ok a last → P a ∧ I last

namespace Keeps

variable {I : Run σ → Prop} {P : α → Prop} {P' : β → Prop}

theorem answer {a : α} (h : P a) : Keeps I P (pure a : Expansion σ α) := by
  intro run last a' hI hx
  cases hx
  exact ⟨h, hI⟩

theorem change {f : Run σ → Run σ} (h : ∀ run, I run → I (f run)) :
    Keeps I (fun _ => True) (modify f : Expansion σ PUnit) := by
  intro run last a hI hx
  cases hx
  exact ⟨trivial, h run hI⟩

theorem sequence {x : Expansion σ α} {f : α → Expansion σ β} (hx : Keeps I P x)
    (hf : ∀ a, P a → Keeps I P' (f a)) : Keeps I P' (x >>= f) := by
  intro run last b hI hb
  obtain ⟨a, mid, ha, hfa⟩ := Expansion.exists_of_run_bind_eq_ok hb
  obtain ⟨hP, hmid⟩ := hx hI ha
  exact hf a hP hmid hfa

end Keeps

/-- From a run with the invariant `I` the step gives an answer that satisfies `P`, and leaves a run
with the invariant. -/
def Ends (I : Run σ → Prop) (P : α → Prop) (x : Expansion σ α) : Prop :=
  ∀ ⦃run : Run σ⦄, I run → ∃ a last, x run = .ok a last ∧ P a ∧ I last

namespace Ends

variable {I : Run σ → Prop} {P : α → Prop} {P' : β → Prop}

theorem answer {a : α} (h : P a) : Ends I P (pure a : Expansion σ α) :=
  fun run hI => ⟨a, run, rfl, h, hI⟩

theorem change {f : Run σ → Run σ} (h : ∀ run, I run → I (f run)) :
    Ends I (fun _ => True) (modify f : Expansion σ PUnit) :=
  fun run hI => ⟨(), f run, rfl, trivial, h run hI⟩

theorem sequence {x : Expansion σ α} {f : α → Expansion σ β} (hx : Ends I P x)
    (hf : ∀ a, P a → Ends I P' (f a)) : Ends I P' (x >>= f) := by
  intro run hI
  obtain ⟨a, mid, ha, hP, hmid⟩ := hx hI
  obtain ⟨b, last, hb, hP', hlast⟩ := hf a hP hmid
  exact ⟨b, last, (Expansion.run_bind_of_ok ha f).trans hb, hP', hlast⟩

/-- A step that gives an answer gives no other. -/
theorem keeps {x : Expansion σ α} (h : Ends I P x) : Keeps I P x := by
  intro run last a hI hx
  obtain ⟨a', last', hx', hP, hlast⟩ := h hI
  rw [hx] at hx'
  cases hx'
  exact ⟨hP, hlast⟩

/-- Looking a symbol up gives its value, an answer of the selector or the symbol itself. -/
theorem lookUp {s : Setting σ} {symbol : Text} {P : Text → Prop}
    (hvalue : ∀ run value, I run → run.bound.get? symbol = some value → P value)
    (hpick : ∀ run candidates, I run → run.rules.get? symbol = some candidates →
      P (run.choose s.pick symbol candidates).1 ∧ I (run.choose s.pick symbol candidates).2)
    (hsymbol : ∀ run, I run → run.rules.get? symbol = none → P symbol) :
    Ends I P (resolve s symbol) := by
  intro run hI
  cases hb : run.bound.get? symbol with
  | some value => exact ⟨value, run, resolve_of_bound hb, hvalue run value hI hb, hI⟩
  | none =>
    cases hr : run.rules.get? symbol with
    | some candidates =>
      exact ⟨_, _, resolve_of_candidates hb hr, hpick run candidates hI hr⟩
    | none => exact ⟨symbol, run, resolve_of_unknown hb hr, hsymbol run hI hr, hI⟩

end Ends

end TextGrammar
