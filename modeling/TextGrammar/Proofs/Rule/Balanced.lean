import TextGrammar.Proofs.Rule.Closing

/-!
# Balanced brackets

A text is balanced when its square brackets open and close in pairs. A scanner passes a balanced
text and comes back to the depth that it had before, and the texts that close a binding are exactly
the balanced ones.

## Main definitions

* `Balanced` — square brackets open and close in pairs.

## Main results

* `Balanced.closeBinding_append`, `Balanced.closeReference_append` — the scanners pass a balanced
  text.
* `balanced_iff` — a text is balanced when a bracket behind it closes a binding right there.
-/

namespace TextGrammar

/-- The square brackets of a text open and close in pairs. -/
inductive Balanced : Text → Prop where
  /-- Nothing is balanced. -/
  | nil : Balanced []
  /-- A character that is no bracket. -/
  | other {c : Char} {t : Text} (ho : c ≠ '[') (hc : c ≠ ']') (ht : Balanced t) : Balanced (c :: t)
  /-- A pair of brackets around a balanced text. -/
  | pair {s t : Text} (hs : Balanced s) (ht : Balanced t) : Balanced ('[' :: s ++ ']' :: t)

namespace Balanced

theorem append {s t : Text} (hs : Balanced s) (ht : Balanced t) : Balanced (s ++ t) := by
  induction hs with
  | nil => exact ht
  | other ho hc _ ih => exact .other ho hc ih
  | @pair inner rest hinner _ _ ih =>
    have h := hinner.pair ih
    simpa using h

/-- A balanced text may be put in anywhere. -/
theorem insert {s a b : Text} (hs : Balanced s) (h : Balanced (a ++ b)) :
    Balanced (a ++ s ++ b) := by
  generalize ht : a ++ b = t at h
  induction h generalizing a b with
  | nil =>
    obtain ⟨rfl, rfl⟩ := List.append_eq_nil_iff.1 ht
    simpa using hs
  | @other c t ho hc htail ih =>
    rcases List.append_eq_cons_iff.1 ht with ⟨rfl, rfl⟩ | ⟨a, rfl, rfl⟩
    · exact hs.append (.other ho hc htail)
    · exact .other ho hc (ih rfl)
  | @pair inner rest hinner hrest ihinner ihrest =>
    rcases List.append_eq_cons_iff.1 ht with ⟨rfl, rfl⟩ | ⟨a, rfl, heq⟩
    · exact hs.append (.pair hinner hrest)
    · -- The place lies right before the end of the pair, behind it, or inside it.
      rcases List.append_eq_append_iff.1 heq with ⟨c, rfl, hc⟩ | ⟨c, rfl, rfl⟩
      · rcases List.cons_eq_append_iff.1 hc with ⟨rfl, rfl⟩ | ⟨c, rfl, rfl⟩
        · have h := (hinner.append hs).pair hrest
          simpa using h
        · have h := hinner.pair (ihrest (a := c) (b := b) rfl)
          simpa using h
      · have h := (ihinner (a := a) (b := c) rfl).pair hrest
        simpa using h

/-- A binding goes on behind a balanced text as if the text were not there. -/
theorem closeBinding_append {s : Text} (hs : Balanced s) (depth : Nat) (t : Text) :
    closeBinding depth (s ++ t) = (closeBinding depth t).map fun p => (s ++ p.1, p.2) := by
  induction hs generalizing depth t with
  | nil => simp
  | @other c s ho hc _ ih =>
    rw [List.cons_append, closeBinding_other ho hc, ih, Option.map_map]
    rfl
  | @pair inner rest _ _ ihinner ihrest =>
    rw [List.append_assoc, List.cons_append, closeBinding_open, ihinner, List.cons_append,
      closeBinding_close_succ, ihrest]
    simp [Function.comp_def]

/-- Inside a bracket a reference goes on behind a balanced text as if the text were not there. -/
theorem closeReference_append {s : Text} (hs : Balanced s) (depth : Nat) (t : Text) :
    closeReference (depth + 1) (s ++ t)
      = (closeReference (depth + 1) t).map fun p => (s ++ p.1, p.2) := by
  induction hs generalizing depth t with
  | nil => simp
  | @other c s ho hc _ ih =>
    rw [List.cons_append, closeReference_other ho hc fun _ => Nat.succ_ne_zero depth, ih,
      Option.map_map]
    rfl
  | @pair inner rest _ _ ihinner ihrest =>
    rw [List.append_assoc, List.cons_append, closeReference_open, ihinner, List.cons_append,
      closeReference_close, Nat.add_sub_cancel, ihrest]
    simp [Function.comp_def]

/-- A balanced text reaches to the bracket that closes its binding. -/
theorem closeBinding_zero {s : Text} (hs : Balanced s) (rest : Text) :
    closeBinding 0 (s ++ ']' :: rest) = some (s, rest) := by
  rw [hs.closeBinding_append, closeBinding_close_zero]
  simp

end Balanced

/-- What a closed binding holds is balanced, together with the brackets that were open before. -/
theorem balanced_of_closeBinding {depth : Nat} {t inner rest : Text}
    (h : closeBinding depth t = some (inner, rest)) :
    Balanced (List.replicate depth '[' ++ inner) := by
  induction t generalizing depth inner with
  | nil => simp [closeBinding] at h
  | cons c t ih =>
    by_cases ho : c = '['
    · subst ho
      rw [closeBinding_open] at h
      obtain ⟨inner, rfl, hi⟩ := map_cons_eq_some h
      have hb := ih hi
      rwa [List.replicate_succ', List.append_assoc] at hb
    · by_cases hc : c = ']'
      · subst hc
        cases depth with
        | zero =>
          rw [closeBinding_close_zero] at h
          cases h
          exact .nil
        | succ depth =>
          rw [closeBinding_close_succ] at h
          obtain ⟨inner, rfl, hi⟩ := map_cons_eq_some h
          have hb := (Balanced.nil.pair .nil).insert (ih hi)
          simpa [List.replicate_succ'] using hb
      · rw [closeBinding_other ho hc] at h
        obtain ⟨inner, rfl, hi⟩ := map_cons_eq_some h
        have hb := (Balanced.other ho hc .nil).insert (ih hi)
        simpa using hb

/-- A text is balanced when a bracket behind it closes a binding right there. -/
theorem balanced_iff (s : Text) : Balanced s ↔ closeBinding 0 (s ++ [']']) = some (s, []) := by
  constructor
  · intro h
    exact h.closeBinding_zero []
  · intro h
    exact balanced_of_closeBinding h

instance : DecidablePred Balanced := fun s => decidable_of_iff _ (balanced_iff s).symm

end TextGrammar
