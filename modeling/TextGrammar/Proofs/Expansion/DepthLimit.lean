import TextGrammar.Proofs.Expansion.Strictness
import TextGrammar.Select.MersenneTwister
import TextGrammar.Select.Selector

/-!
# Raising the depth limit

An expansion that stays within a limit never asks how much of it is left. So it is the same, step by
step, under every higher limit.

## Main results

* `refines_flatten` — what a strict expansion does within its levels it does within more levels.
* `Grammar.Finishes.of_maxDepth_le` — what expands within a limit expands alike within a higher one.
-/

namespace TextGrammar

variable {σ α β : Type}

/-- Whatever answer the step `x` gives, the step `y` gives it too and leaves the same run. -/
def Refines (x y : Expansion σ α) : Prop :=
  ∀ {run last : Run σ} {a : α}, x run = .ok a last → y run = .ok a last

theorem Refines.sequence {x y : Expansion σ α} {f g : α → Expansion σ β} (h : Refines x y)
    (hf : ∀ a, Refines (f a) (g a)) : Refines (x >>= f) (y >>= g) := by
  intro run last b hb
  obtain ⟨a, mid, ha, hfa⟩ := Expansion.exists_of_run_bind_eq_ok hb
  rw [Expansion.run_bind_of_ok (h ha)]
  exact hf a hfa

/-- Everything an expansion does is refined when only the limit changes. -/
theorem Refines.congruence (s : Setting σ) (d d' : Int) :
    Congruence { s with maxDepth := d } { s with maxDepth := d' } Refines where
  answer _ := fun h => h
  sequence := Refines.sequence
  lookUp _ := fun h => h
  write _ _ := fun h => h
  note _ _ := fun h => h
  modifiers _ := rfl

/-- What a strict expansion does within its levels it does within more levels. -/
theorem refines_flatten (s : Setting σ) (hs : s.strict = true) (d d' : Int) {levels levels' : Nat}
    (hl : levels ≤ levels') (rule : Text) :
    Refines (flatten { s with maxDepth := d } levels rule)
      (flatten { s with maxDepth := d' } levels' rule) := by
  induction levels generalizing levels' rule with
  | zero =>
    intro run last text h
    rcases flatten_eq_ok_of_strict (s := { s with maxDepth := d }) hs h with
      ⟨hr, rfl, rfl⟩ | ⟨fewer, hfewer, -⟩
    · rw [flatten_of_not_hasSyntax _ _ hr]
      rfl
    · omega
  | succ levels ih =>
    obtain ⟨more, rfl⟩ : ∃ more, levels' = more + 1 := ⟨levels' - 1, by omega⟩
    have hmore : levels ≤ more := by omega
    intro run last text h
    rcases flatten_eq_ok_of_strict (s := { s with maxDepth := d }) hs h with
      ⟨hr, rfl, rfl⟩ | ⟨fewer, hfewer, hr, ht, hparts⟩
    · rw [flatten_of_not_hasSyntax _ _ hr]
      rfl
    · obtain rfl : levels = fewer := Nat.succ.inj hfewer
      rw [flatten_succ_of_not_truncated _ _ hr ht]
      exact (Refines.congruence s d d').expandNodes (fun rule => ih hmore rule) (parse rule) hparts

namespace Grammar

variable {g : Grammar} {pick : Pick σ} {selector : σ} {rule text : Text} {run : Run σ}

/-- What expands within a limit expands alike within a higher one. -/
theorem Finishes.of_maxDepth_le {d d' : Int} (hd : d ≤ d')
    (h : { g with maxDepth := d }.Finishes pick selector rule text run) :
    { g with maxDepth := d' }.Finishes pick selector rule text run := by
  have hl : (d + 1).toNat ≤ (d' + 1).toNat := by omega
  exact refines_flatten { g.setting pick with strict := true } rfl d d' hl rule h

/-- An expansion that does not pass its limit comes to the same under every higher limit: the same
text after the same events, calls of the selector among them, and the same selector and rules. -/
theorem flatten_of_maxDepth_le (g : Grammar) (pick : Pick σ) (selector : σ) (rule : Text)
    {d d' : Int} (hd : d ≤ d')
    (h : ¬ ({ g with maxDepth := d }.flatten pick selector rule).PassesLimit) :
    let low := { g with maxDepth := d }.flatten pick selector rule
    let high := { g with maxDepth := d' }.flatten pick selector rule
    (∃ text, low.result = .ok text) ∧ high.result = low.result ∧ high.events = low.events ∧
      high.selector = low.selector ∧ high.grammar.rules = low.grammar.rules := by
  intro low high
  obtain ⟨text, run, hf⟩ := exists_finishes h
  have hlow : low = { g with maxDepth := d }.finished text run := hf.flatten_eq.1
  have hhigh : high = { g with maxDepth := d' }.finished text run :=
    (hf.of_maxDepth_le hd).flatten_eq.1
  rw [hlow, hhigh]
  exact ⟨⟨text, rfl⟩, rfl, rfl, rfl, rfl⟩

/-- A pair of names, the first of which is kept in a variable. -/
def namePair : Grammar where
  rules := .ofList [("name".toList, ["Anna".toList, "Bob".toList]),
    ("pair".toList, ["#[first:#name#]first# and #name#".toList])]

/-- A pair of names lies two levels deep, so it comes out the same under a limit of nine. -/
theorem namePair_within_two :
    let pick := (Selector.pick : Pick (Selector MersenneTwister))
    let low := { namePair with maxDepth := 2 }.flatten pick (.sequential ∅) "#pair#".toList
    let high := { namePair with maxDepth := 9 }.flatten pick (.sequential ∅) "#pair#".toList
    ¬ low.PassesLimit ∧ low.result.toOption = some "Anna and Bob".toList ∧
      (∃ text, low.result = .ok text) ∧ high.result = low.result ∧ high.events = low.events ∧
      high.selector = low.selector ∧ high.grammar.rules = low.grammar.rules := by
  intro pick low high
  have hlow : ¬ low.PassesLimit := by decide +kernel
  have htext : low.result.toOption = some "Anna and Bob".toList := by decide +kernel
  exact ⟨hlow, htext, flatten_of_maxDepth_le namePair pick (.sequential ∅) _ (by decide) hlow⟩

end Grammar

end TextGrammar
