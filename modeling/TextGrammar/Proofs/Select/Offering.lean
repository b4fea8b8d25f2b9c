import TextGrammar.Select.Selector
import TextGrammar.Expand.Run
import Mathlib.Data.List.GetD

/-!
# Selectors that answer what is offered

What a selector may answer is asked of the states that it comes to, not of states that no sequence
of requests leads to.

## Main definitions

* `Pick.Reaches` — the states that a selector comes to by answering.
* `Pick.Offers` — a selector that only ever answers a candidate or the empty text.
* `Pick.Chooses` — a selector that answers a candidate whenever one is offered.
* `Pick.Makes` — a selector that makes one choice of candidates for the symbols of a table;
  `Pick.ofChoice`, the one without a memory.
-/

namespace TextGrammar

variable {σ : Type}

/-- The states that a selector comes to from `start` by answering requests. -/
inductive Pick.Reaches (pick : Pick σ) (start : σ) : σ → Prop where
  /-- Before the first request. -/
  | start : pick.Reaches start start
  /-- After one more request. -/
  | answer {state : σ} (h : pick.Reaches start state) (symbol : Text) (candidates : List Text) :
    pick.Reaches start (pick state symbol candidates).2

/-- From `start` on, every answer is one of the candidates or the empty text. -/
def Pick.Offers (pick : Pick σ) (start : σ) : Prop :=
  ∀ state, pick.Reaches start state → ∀ symbol candidates,
    (pick state symbol candidates).1 = [] ∨ (pick state symbol candidates).1 ∈ candidates

theorem Pick.Reaches.trans {pick : Pick σ} {a b c : σ} (hab : pick.Reaches a b)
    (hbc : pick.Reaches b c) : pick.Reaches a c := by
  induction hbc with
  | start => exact hab
  | answer _ symbol candidates ih => exact .answer ih symbol candidates

theorem Pick.Offers.answer {pick : Pick σ} {state : σ} (h : pick.Offers state) (symbol : Text)
    (candidates : List Text) :
    (pick state symbol candidates).1 = [] ∨ (pick state symbol candidates).1 ∈ candidates :=
  h state .start symbol candidates

/-- A selector goes on as it began. -/
theorem Pick.Offers.next {pick : Pick σ} {state : σ} (h : pick.Offers state) (symbol : Text)
    (candidates : List Text) : pick.Offers (pick state symbol candidates).2 :=
  fun later hl => h later ((Pick.Reaches.start.answer symbol candidates).trans hl)

/-- From `start` on, every answer is one of the candidates, and the empty text when there are
none. -/
def Pick.Chooses (pick : Pick σ) (start : σ) : Prop :=
  ∀ state, pick.Reaches start state → ∀ symbol candidates,
    candidates = [] ∧ (pick state symbol candidates).1 = [] ∨
      (pick state symbol candidates).1 ∈ candidates

theorem Pick.Chooses.answer {pick : Pick σ} {state : σ} (h : pick.Chooses state) (symbol : Text)
    (candidates : List Text) : candidates = [] ∧ (pick state symbol candidates).1 = [] ∨
      (pick state symbol candidates).1 ∈ candidates :=
  h state .start symbol candidates

theorem Pick.Chooses.next {pick : Pick σ} {state : σ} (h : pick.Chooses state) (symbol : Text)
    (candidates : List Text) : pick.Chooses (pick state symbol candidates).2 :=
  fun later hl => h later ((Pick.Reaches.start.answer symbol candidates).trans hl)

theorem Pick.Chooses.offers {pick : Pick σ} {start : σ} (h : pick.Chooses start) :
    pick.Offers start :=
  fun state hstate symbol candidates => (h state hstate symbol candidates).imp_left And.right

/-- From `start` on, the answer for a symbol of the table is the candidate that `choice` gives its
name, and the empty text when the symbol has no candidates. -/
def Pick.Makes (pick : Pick σ) (table : RuleTable) (choice : Text → Text) (start : σ) : Prop :=
  ∀ state, pick.Reaches start state → ∀ symbol candidates, table.get? symbol = some candidates →
    (pick state symbol candidates).1 = if candidates = [] then [] else choice (Text.lower symbol)

theorem Pick.Makes.answer {pick : Pick σ} {table : RuleTable} {choice : Text → Text} {state : σ}
    (h : pick.Makes table choice state) {symbol : Text} {candidates : List Text}
    (hget : table.get? symbol = some candidates) :
    (pick state symbol candidates).1 = if candidates = [] then [] else choice (Text.lower symbol) :=
  h state .start symbol candidates hget

theorem Pick.Makes.next {pick : Pick σ} {table : RuleTable} {choice : Text → Text} {state : σ}
    (h : pick.Makes table choice state) (symbol : Text) (candidates : List Text) :
    pick.Makes table choice (pick state symbol candidates).2 :=
  fun later hl => h later ((Pick.Reaches.start.answer symbol candidates).trans hl)

/-- The selector that answers every request for a symbol with what `choice` gives its name. -/
def Pick.ofChoice (choice : Text → Text) : Pick Unit := fun _ symbol candidates =>
  (if candidates = [] then [] else choice (Text.lower symbol), ())

theorem makes_ofChoice (table : RuleTable) (choice : Text → Text) :
    (Pick.ofChoice choice).Makes table choice () := fun _ _ _ _ _ => rfl

/-! ## Choices among candidates -/

/-- A place drawn below the number of candidates is the place of one of them. -/
theorem Selector.pickRandom_mem [RandomSource σ] [LawfulRandomSource σ] (source : σ)
    {candidates : List Text} (hc : candidates ≠ []) :
    (Selector.pickRandom source candidates).1 ∈ candidates := by
  have hlt := LawfulRandomSource.below_lt source candidates.length (List.length_pos_iff.2 hc)
  show candidates.getD (RandomSource.below source candidates.length).1 _ ∈ candidates
  rw [List.getD_eq_getElem _ _ hlt]
  exact List.getElem_mem hlt

/-- A remembered place, taken modulo the number of candidates, is the place of one of them. -/
theorem Selector.pickNext_mem (next : NameMap Nat) (symbol : Text) {candidates : List Text}
    (hc : candidates ≠ []) : (Selector.pickNext next symbol candidates).1 ∈ candidates := by
  have hlt : (next.get? symbol).getD 0 % candidates.length < candidates.length :=
    Nat.mod_lt _ (List.length_pos_iff.2 hc)
  show candidates.getD _ [] ∈ candidates
  rw [List.getD_eq_getElem _ _ hlt]
  exact List.getElem_mem hlt

/-- Walking along the candidates answers a candidate whenever there is one. -/
theorem chooses_sequential [RandomSource σ] (next : NameMap Nat) :
    Pick.Chooses (Selector.pick : Pick (Selector σ)) (.sequential next) := by
  intro state hstate symbol candidates
  have hseq : ∃ next, state = .sequential next := by
    induction hstate with
    | start => exact ⟨next, rfl⟩
    | answer _ symbol candidates ih =>
      obtain ⟨next, rfl⟩ := ih
      by_cases hc : candidates = []
      · exact ⟨next, by rw [Selector.pick, if_pos hc]⟩
      · exact ⟨_, by rw [Selector.pick, if_neg hc]⟩
  obtain ⟨next, rfl⟩ := hseq
  by_cases hc : candidates = []
  · exact .inl ⟨hc, by rw [Selector.pick, if_pos hc]⟩
  · refine .inr ?_
    rw [Selector.pick, if_neg hc]
    exact Selector.pickNext_mem next symbol hc

end TextGrammar
