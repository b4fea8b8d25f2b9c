import TextGrammar.Lint.LeastSet
import Mathlib.Data.List.Basic
import Mathlib.Data.Nat.Find

/-!
# Sets of names that grow by a rule are closed

A rule is monotone when it adds no fewer names on the ground of more. Then every round keeps the
names of the round before, and as long as a round adds a name the set grows; so after as many rounds
as there are names nothing is left to add.

## Main definitions

* `MonotoneRule` — a rule that adds no fewer names on the ground of more.

## Main results

* `MonotoneRule.mem_leastSet_iff` — the least set holds exactly the names that the rule adds to it.
* `forall_mem_leastSet` — what the rule keeps holds of every name of the least set.
* `exists_first_round` — a name of the least set comes in by the rule, in a first round.
-/

namespace TextGrammar

/-- The rule adds no fewer names on the ground of more. -/
def MonotoneRule (rule : List Text → Text → Bool) : Prop :=
  ∀ ⦃few many : List Text⦄, few ⊆ many → ∀ ⦃n⦄, rule few n = true → rule many n = true

variable {names : List Text} {rule : List Text → Text → Bool}

namespace MonotoneRule

/-- More names on the ground, no fewer in the next round. -/
theorem filter_sublist (h : MonotoneRule rule) {few many : List Text} (hs : few ⊆ many) :
    (names.filter (rule few)).Sublist (names.filter (rule many)) :=
  List.monotone_filter_right names fun _ hn => h hs hn

/-- A round keeps the names of the round before. -/
theorem leastSetWithin_sublist_succ (h : MonotoneRule rule) (rounds : Nat) :
    (leastSetWithin names rule rounds).Sublist (leastSetWithin names rule (rounds + 1)) := by
  induction rounds with
  | zero => exact List.nil_sublist _
  | succ rounds ih => exact h.filter_sublist ih.subset

/-- As long as every round adds a name, there are as many names as rounds. -/
theorem le_length_leastSetWithin (h : MonotoneRule rule) {rounds : Nat}
    (hgrow : ∀ k < rounds, leastSetWithin names rule (k + 1) ≠ leastSetWithin names rule k) :
    rounds ≤ (leastSetWithin names rule rounds).length := by
  induction rounds with
  | zero => exact Nat.zero_le _
  | succ rounds ih =>
    have hbefore := ih fun k hk => hgrow k (Nat.lt_succ_of_lt hk)
    have hsub : (leastSetWithin names rule rounds).Sublist (leastSetWithin names rule (rounds + 1)) :=
      h.leastSetWithin_sublist_succ rounds
    have hne : (leastSetWithin names rule rounds).length
        ≠ (leastSetWithin names rule (rounds + 1)).length :=
      fun heq => hgrow rounds (Nat.lt_succ_self rounds) (hsub.eq_of_length heq).symm
    have hle := hsub.length_le
    omega

/-- Some round adds no name, at the latest when all names are there. -/
theorem exists_round_eq (h : MonotoneRule rule) (names : List Text) :
    ∃ k ≤ names.length, leastSetWithin names rule (k + 1) = leastSetWithin names rule k := by
  refine Classical.byContradiction fun hnone => ?_
  have hgrow : ∀ k < names.length + 1,
      leastSetWithin names rule (k + 1) ≠ leastSetWithin names rule k :=
    fun k hk heq => hnone ⟨k, Nat.le_of_lt_succ hk, heq⟩
  have hlong := h.le_length_leastSetWithin hgrow
  have hshort : (leastSetWithin names rule (names.length + 1)).length ≤ names.length :=
    List.length_filter_le _ _
  omega

/-- A round that adds no name is followed by such rounds only. -/
theorem leastSetWithin_add_eq {k : Nat}
    (hk : leastSetWithin names rule (k + 1) = leastSetWithin names rule k) (more : Nat) :
    leastSetWithin names rule (k + more) = leastSetWithin names rule k := by
  induction more with
  | zero => rfl
  | succ more ih =>
    calc leastSetWithin names rule (k + more + 1)
        = names.filter (rule (leastSetWithin names rule (k + more))) := rfl
      _ = names.filter (rule (leastSetWithin names rule k)) := by rw [ih]
      _ = leastSetWithin names rule k := hk

/-- Nothing is left to add to the least set. -/
theorem filter_leastSet (h : MonotoneRule rule) (names : List Text) :
    names.filter (rule (leastSet names rule)) = leastSet names rule := by
  obtain ⟨k, hle, hk⟩ := h.exists_round_eq names
  have hlast : leastSet names rule = leastSetWithin names rule k := by
    have hadd := leastSetWithin_add_eq hk (names.length - k)
    rwa [Nat.add_sub_cancel' hle] at hadd
  rw [hlast]
  exact hk

/-- The least set holds exactly the names that the rule adds to it. -/
theorem mem_leastSet_iff (h : MonotoneRule rule) {n : Text} :
    n ∈ leastSet names rule ↔ n ∈ names ∧ rule (leastSet names rule) n = true := by
  conv_lhs => rw [← h.filter_leastSet names]
  exact List.mem_filter

end MonotoneRule

/-- What holds of every name that the rule adds, on the ground of names of which it holds, holds of
the names of every round. -/
theorem forall_mem_leastSetWithin {p : Text → Prop}
    (hp : ∀ known n, n ∈ names → (∀ x ∈ known, p x) → rule known n = true → p n) (rounds : Nat) :
    ∀ n ∈ leastSetWithin names rule rounds, p n := by
  induction rounds with
  | zero => intro n hn; cases hn
  | succ rounds ih =>
    intro n hn
    obtain ⟨hname, hrule⟩ := List.mem_filter.1 hn
    exact hp _ n hname ih hrule

/-- What holds of every name that the rule adds, on the ground of names of which it holds, holds of
the least set. -/
theorem forall_mem_leastSet {p : Text → Prop}
    (hp : ∀ known n, n ∈ names → (∀ x ∈ known, p x) → rule known n = true → p n) :
    ∀ n ∈ leastSet names rule, p n :=
  forall_mem_leastSetWithin hp names.length

/-- A name that is added in some rounds comes in by the rule in a first one. -/
theorem exists_first_round {n : Text} {rounds : Nat} (h : n ∈ leastSetWithin names rule rounds) :
    ∃ first, rule (leastSetWithin names rule first) n = true ∧
      ∀ k, n ∈ leastSetWithin names rule k → first < k := by
  have hex : ∃ k, n ∈ leastSetWithin names rule k := ⟨rounds, h⟩
  have hmin : ∀ k, n ∈ leastSetWithin names rule k → Nat.find hex ≤ k := fun k hk =>
    Nat.find_min' hex hk
  have hfirst := Nat.find_spec hex
  generalize Nat.find hex = k at hmin hfirst
  cases k with
  | zero => cases hfirst
  | succ first =>
    exact ⟨first, (List.mem_filter.1 hfirst).2, fun k hk => Nat.lt_of_succ_le (hmin k hk)⟩

end TextGrammar
