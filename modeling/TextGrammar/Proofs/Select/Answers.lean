import TextGrammar.Proofs.Select.Deck
import TextGrammar.Proofs.Select.Offering
import TextGrammar.Select.Build

/-!
# What selectors answer

In every state that it can come to, a selector answers one of the candidates that it is offered, or
the empty text. It answers the empty text without being offered it only when there are no candidates
or when a composite on the way of the symbol has no part of the name that the symbol is meant for.
Offered nothing, no selector changes.

The memories of decks are the only ones that an answer depends on: a deck has to hold candidates
that it was shuffled from. A place that was remembered for a longer list is no danger, it is taken
modulo the length of the list that is offered.

## Main definitions

* `Selector.Attainable` — the selectors that can be built, and what they become by answering.
* `Selector.Misses` — a composite on the way of a symbol has no part of its name.
* `Selector.Intact` — all decks hold candidates of their own.

## Main results

* `Selector.parts_cases` — the first part of a name answers for a composite, or none does.
* `Selector.pick_nil` — offered nothing, a selector answers nothing and stays as it is.
* `Selector.Misses.pick` — a symbol that goes astray is answered with nothing and changes nothing.
* `Selector.Intact.pick` — what an intact selector answers, and that it stays intact.
* `Selector.pick_of_attainable` — what a selector answers in every state that it can come to.
-/

namespace TextGrammar

namespace Selector

variable {σ : Type}

/-- A composite is built of a marker that is not empty. -/
theorem compose_eq_ok_iff {marker : Text} {parts : List (Text × Selector σ)}
    {selector : Selector σ} : compose marker parts = .ok selector ↔
      marker ≠ [] ∧ selector = .composite marker (NameMap.ofList parts).entries := by
  unfold compose
  split
  · simp [*]
  · simp [*, eq_comm]

/-- Of the parts of a composite the first one of a name answers, or none has the name. -/
theorem parts_cases (parts : List (Text × Selector σ)) (name : Text) :
    (∀ p ∈ parts, Text.lower p.1 ≠ Text.lower name) ∨
      ∃ before p after, parts = before ++ p :: after ∧
        (∀ q ∈ before, Text.lower q.1 ≠ Text.lower name) ∧ Text.lower p.1 = Text.lower name := by
  cases hfind : parts.find? (fun p => Text.sameName p.1 name) with
  | none =>
    refine .inl fun p hp => ?_
    simpa using List.find?_eq_none.1 hfind p hp
  | some p =>
    obtain ⟨hp, before, after, hparts, hbefore⟩ := List.find?_eq_some_iff_append.1 hfind
    refine .inr ⟨before, p, after, hparts, fun q hq heq => ?_, (Text.sameName_iff _ _).1 hp⟩
    simpa [heq, Text.sameName] using hbefore q hq

variable [RandomSource σ]

/-! ## Selectors that can be built -/

/-- The selectors that can be built, and what they become. The source of a deck may also serve
others, who leave it in any state. -/
inductive Attainable : Selector σ → Prop
  | random (source : σ) : Attainable (.random source)
  | first : Attainable .first
  | sequential : Attainable (.sequential ∅)
  | deck (source : σ) : Attainable (.deck source ∅)
  /-- A composite of selectors, which may have answered before. -/
  | composite {marker : Text} {parts : List (Text × Selector σ)} {selector : Selector σ}
    (hparts : ∀ p ∈ parts, Attainable p.2) (h : compose marker parts = .ok selector) :
    Attainable selector
  /-- A deck selector after others have drawn from its source. -/
  | shared {source : σ} {decks : NameMap Deck} (h : Attainable (.deck source decks)) (other : σ) :
    Attainable (.deck other decks)
  /-- A selector that has answered. -/
  | answered {selector : Selector σ} (h : Attainable selector) (symbol : Text)
    (candidates : List Text) : Attainable (selector.pick symbol candidates).2

/-- On the way of a symbol some composite has no part of the name that the symbol is meant for. -/
inductive Misses : Selector σ → Text → Prop
  /-- The composite has no such part. -/
  | here {marker symbol : Text} {parts : List (Text × Selector σ)}
    (h : ∀ p ∈ parts, Text.lower p.1 ≠ Text.lower (routeName marker symbol)) :
    Misses (.composite marker parts) symbol
  /-- The part of that name leads the symbol astray. -/
  | inside {marker symbol : Text} {before : List (Text × Selector σ)} {p : Text × Selector σ}
    (hbefore : ∀ q ∈ before, Text.lower q.1 ≠ Text.lower (routeName marker symbol))
    (hp : Text.lower p.1 = Text.lower (routeName marker symbol)) (h : Misses p.2 symbol)
    (after : List (Text × Selector σ)) : Misses (.composite marker (before ++ p :: after)) symbol

/-! ## The parts of a composite -/

theorem pickAmong_of_ne {parts : List (Text × Selector σ)} {name : Text}
    (h : ∀ p ∈ parts, Text.lower p.1 ≠ Text.lower name) (symbol : Text) (candidates : List Text) :
    pickAmong parts name symbol candidates = ([], parts) := by
  induction parts with
  | nil => rw [pickAmong]
  | cons p parts ih =>
    obtain ⟨hp, hrest⟩ := List.forall_mem_cons.1 h
    rw [pickAmong, if_neg (by simpa using hp), ih hrest]

theorem pickAmong_of_eq {before : List (Text × Selector σ)} {p : Text × Selector σ} {name : Text}
    (hbefore : ∀ q ∈ before, Text.lower q.1 ≠ Text.lower name)
    (hp : Text.lower p.1 = Text.lower name) (after : List (Text × Selector σ)) (symbol : Text)
    (candidates : List Text) :
    pickAmong (before ++ p :: after) name symbol candidates
      = ((p.2.pick symbol candidates).1,
          before ++ (p.1, (p.2.pick symbol candidates).2) :: after) := by
  induction before with
  | nil => rw [List.nil_append, pickAmong, if_pos (by simpa using hp), List.nil_append]
  | cons q before ih =>
    obtain ⟨hq, hrest⟩ := List.forall_mem_cons.1 hbefore
    rw [List.cons_append, pickAmong, if_neg (by simpa using hq), ih hrest, List.cons_append]

/-! ## Nothing offered, and symbols that go astray -/

mutual

/-- Offered nothing, a selector answers nothing and stays as it is. -/
theorem pick_nil (selector : Selector σ) (symbol : Text) :
    selector.pick symbol [] = ([], selector) := by
  cases selector with
  | random source => rw [pick, if_pos rfl]
  | first => rw [pick, List.headD_nil]
  | sequential next => rw [pick, if_pos rfl]
  | deck source decks => exact pick_deck_nil source decks symbol
  | composite marker parts => rw [pick, pickAmong_nil]

theorem pickAmong_nil (parts : List (Text × Selector σ)) (name symbol : Text) :
    pickAmong parts name symbol [] = ([], parts) := by
  cases parts with
  | nil => rw [pickAmong]
  | cons p parts =>
    obtain ⟨n, selector⟩ := p
    rw [pickAmong, pick_nil selector symbol, pickAmong_nil parts name symbol]
    exact ite_self _

end

/-- A symbol that goes astray is answered with nothing and changes nothing. -/
theorem Misses.pick {selector : Selector σ} {symbol : Text} (h : selector.Misses symbol)
    (candidates : List Text) : selector.pick symbol candidates = ([], selector) := by
  induction h with
  | here h => rw [Selector.pick, pickAmong_of_ne h]
  | inside hbefore hp _ after ih => rw [Selector.pick, pickAmong_of_eq hbefore hp, ih]

/-! ## Answers -/

/-- All decks hold candidates of their own. -/
inductive Intact : Selector σ → Prop
  | random (source : σ) : Intact (.random source)
  | first : Intact .first
  | sequential (next : NameMap Nat) : Intact (.sequential next)
  /-- The decks of a selector. -/
  | deck {decks : NameMap Deck} (h : DecksIntact decks) (source : σ) : Intact (.deck source decks)
  | composite {parts : List (Text × Selector σ)} (h : ∀ p ∈ parts, Intact p.2) (marker : Text) :
    Intact (.composite marker parts)

/-- Offered candidates, an intact selector answers one of them unless the symbol goes astray. -/
theorem Intact.answer_mem [LawfulRandomSource σ] {selector : Selector σ} (h : selector.Intact)
    (symbol : Text) {candidates : List Text} (hc : candidates ≠ []) :
    (selector.pick symbol candidates).1 ∈ candidates ∨ selector.Misses symbol := by
  induction h with
  | random source =>
    rw [pick, if_neg hc]
    exact .inl (pickRandom_mem source hc)
  | first =>
    obtain ⟨c, rest, rfl⟩ := List.exists_cons_of_ne_nil hc
    rw [pick]
    exact .inl List.mem_cons_self
  | sequential next =>
    rw [pick, if_neg hc]
    exact .inl (pickNext_mem next symbol hc)
  | deck h source =>
    obtain ⟨card, next, decks', heq, hcard, -⟩ := h.pick shufflesTexts_of_lawful source symbol hc
    rw [heq]
    exact .inl hcard
  | @composite parts h marker ih =>
    rcases parts_cases parts (routeName marker symbol) with hne | ⟨before, p, after, rfl, hb, hp⟩
    · exact .inr (.here hne)
    · rw [pick, pickAmong_of_eq hb hp]
      exact (ih p (by simp)).imp_right fun hm => .inside hb hp hm after

/-- An intact selector stays intact when it answers. -/
theorem Intact.pick [LawfulRandomSource σ] {selector : Selector σ} (h : selector.Intact)
    (symbol : Text) (candidates : List Text) : (selector.pick symbol candidates).2.Intact := by
  by_cases hc : candidates = []
  · rw [hc, pick_nil]
    exact h
  · induction h with
    | random source =>
      rw [Selector.pick, if_neg hc]
      exact .random _
    | first =>
      rw [Selector.pick]
      exact .first
    | sequential next =>
      rw [Selector.pick, if_neg hc]
      exact .sequential _
    | deck h source =>
      obtain ⟨card, next, decks', heq, -, hdecks⟩ :=
        h.pick shufflesTexts_of_lawful source symbol hc
      rw [heq]
      exact .deck hdecks next
    | @composite parts h marker ih =>
      rcases parts_cases parts (routeName marker symbol) with hne | ⟨before, p, after, rfl, hb, hp⟩
      · rw [Selector.pick, pickAmong_of_ne hne]
        exact .composite h marker
      · rw [Selector.pick, pickAmong_of_eq hb hp]
        refine .composite (fun q hq => ?_) marker
        rcases List.mem_append.1 hq with hq | hq
        · exact h q (List.mem_append_left _ hq)
        · rcases List.mem_cons.1 hq with rfl | hq
          · exact ih p (by simp)
          · exact h q (by simp [hq])

/-- Every state that a selector can come to is intact. -/
theorem Attainable.intact [LawfulRandomSource σ] {selector : Selector σ}
    (h : selector.Attainable) : selector.Intact := by
  induction h with
  | random source => exact .random source
  | first => exact .first
  | sequential => exact .sequential ∅
  | deck source => exact .deck .empty source
  | @composite marker parts selector _ h ih =>
    obtain ⟨-, rfl⟩ := compose_eq_ok_iff.1 h
    exact .composite (fun p hp => ih p (NameMap.mem_of_mem_ofList hp)) marker
  | shared _ other ih =>
    cases ih with
    | deck h => exact .deck h other
  | answered _ symbol candidates ih => exact ih.pick symbol candidates

/-- What a selector answers in every state that it can come to: one of the candidates or the empty
text; offered candidates, the empty text without its being one of them only for a symbol that goes
astray in some composite, which is always answered so and changes nothing; offered nothing, the
empty text, and the selector stays as it is. -/
theorem pick_of_attainable [LawfulRandomSource σ] {selector : Selector σ}
    (h : selector.Attainable) (symbol : Text) (candidates : List Text) :
    ((selector.pick symbol candidates).1 ∈ candidates ∨ (selector.pick symbol candidates).1 = []) ∧
    (candidates ≠ [] → (selector.pick symbol candidates).1 ∉ candidates →
      (selector.pick symbol candidates).1 = [] ∧ selector.Misses symbol) ∧
    (selector.Misses symbol → selector.pick symbol candidates = ([], selector)) ∧
    (candidates = [] → selector.pick symbol candidates = ([], selector)) := by
  have hmisses : selector.Misses symbol → selector.pick symbol candidates = ([], selector) :=
    fun hm => hm.pick candidates
  have hnil : candidates = [] → selector.pick symbol candidates = ([], selector) := by
    rintro rfl
    exact pick_nil selector symbol
  have hmem : candidates ≠ [] →
      (selector.pick symbol candidates).1 ∈ candidates ∨ selector.Misses symbol :=
    fun hc => h.intact.answer_mem symbol hc
  refine ⟨?_, fun hc hnot => ?_, hmisses, hnil⟩
  · by_cases hc : candidates = []
    · exact .inr (by rw [hnil hc])
    · exact (hmem hc).imp_right fun hm => by rw [hmisses hm]
  · have hm := (hmem hc).resolve_left hnot
    exact ⟨by rw [hmisses hm], hm⟩

/-- Colours from a deck; a composite inside has no parts. -/
def colourSelector : Selector MersenneTwister :=
  .composite ['*'] [("deck".toList, .deck (MersenneTwister.ofSeed 7) ∅),
    ("lost".toList, .composite ['*'] [])]

theorem attainable_colourSelector : colourSelector.Attainable := by
  have hbuilt : compose ['*'] [("deck".toList, .deck (MersenneTwister.ofSeed 7) ∅),
      ("lost".toList, .composite ['*'] [])] = .ok colourSelector := rfl
  have hinner : compose (σ := MersenneTwister) ['*'] [] = .ok (.composite ['*'] []) := rfl
  have hnone : ∀ q ∈ ([] : List (Text × Selector MersenneTwister)), q.2.Attainable := by simp
  refine .composite (fun p hp => ?_) hbuilt
  rcases List.mem_cons.1 hp with rfl | hp
  · exact .deck _
  · rcases List.mem_singleton.1 hp with rfl
    exact .composite hnone hinner

/-- After a colour has been picked the next one is picked from what is offered, a symbol of the
inner composite goes astray, and nothing is picked from nothing. -/
theorem colourSelector_answers :
    let colours := ["red".toList, "blue".toList]
    let later := (colourSelector.pick "hue*deck".toList colours).2
    later.Attainable ∧
      ((later.pick "shade*Deck".toList colours).1 ∈ colours ∨
        (later.pick "shade*Deck".toList colours).1 = []) ∧
      ((later.pick "shade*Deck".toList colours).1 ∉ colours → later.Misses "shade*Deck".toList) ∧
      colourSelector.Misses "hue*lost".toList ∧
      colourSelector.pick "hue*lost".toList colours = ([], colourSelector) ∧
      later.pick "shade*Deck".toList [] = ([], later) := by
  intro colours later
  have hlater : later.Attainable := attainable_colourSelector.answered _ _
  have hinside : (.composite ['*'] [] : Selector MersenneTwister).Misses "hue*lost".toList :=
    .here (by simp)
  have hdeck : ∀ q ∈ [("deck".toList, Selector.deck (MersenneTwister.ofSeed 7) ∅)],
      Text.lower q.1 ≠ Text.lower (routeName ['*'] "hue*lost".toList) := by
    intro q hq
    rcases List.mem_singleton.1 hq with rfl
    decide
  have hlost : Text.lower "lost".toList = Text.lower (routeName ['*'] "hue*lost".toList) := by decide
  have hmisses : colourSelector.Misses "hue*lost".toList :=
    Misses.inside (p := ("lost".toList, .composite ['*'] [])) hdeck hlost hinside []
  obtain ⟨hanswer, hastray, -, -⟩ := pick_of_attainable hlater "shade*Deck".toList colours
  obtain ⟨-, -, hlost, -⟩ := pick_of_attainable attainable_colourSelector "hue*lost".toList colours
  obtain ⟨-, -, -, hnothing⟩ := pick_of_attainable hlater "shade*Deck".toList []
  exact ⟨hlater, hanswer, fun h => (hastray (by decide) h).2, hmisses, hlost hmisses, hnothing rfl⟩

end Selector

end TextGrammar
