import TextGrammar.Proofs.Select.Exchanges
import TextGrammar.Select.MersenneTwister
import TextGrammar.Select.Selector
import Mathlib.Data.List.Induction
import Mathlib.Data.List.Infix
import Mathlib.Data.List.Perm.Subperm

/-!
# Decks deal in rounds

A deck selector shuffles the candidates of a symbol, draws them one by one and shuffles again when
none is left. So as long as the same candidates are offered for a symbol its picks come in rounds,
each of which holds every candidate as often as it was offered. What is offered for other symbols in
between does not matter, nor what the source of random choices does, as long as shuffling keeps the
texts.

The invariant is about one symbol and its candidates: the picks so far, followed by what is left of
the deck, are whole rounds. A deck of other candidates counts as empty, so a round begins when the
candidates change.

## Main definitions

* `ShufflesTexts` — shuffling keeps the texts; all that is asked of a source here.
* `cardsLeft` — what is left of the deck of a symbol.
* `WholeRounds` — candidates dealt over and over, each time all of them.
* `roundOf` — the picks of one round.

## Main results

* `Selector.pick_deck` — what one pick from a deck does.
* `wholeRounds_of_exchanges` — whole rounds are dealt, up to what is left of the deck.
* `deck_deals_in_rounds` — every round of picks is a permutation of the candidates, and no pick
  comes from other candidates than those offered.
-/

namespace TextGrammar

variable {σ : Type} [RandomSource σ]

/-- Shuffling keeps the texts, whatever state the source is in. -/
def ShufflesTexts (σ : Type) [RandomSource σ] : Prop :=
  ∀ (source : σ) (texts : List Text), (RandomSource.shuffle source texts).1.Perm texts

theorem shufflesTexts_of_lawful [LawfulRandomSource σ] : ShufflesTexts σ :=
  LawfulRandomSource.shuffle_perm

/-! ## One pick -/

/-- What is left of the deck of a symbol for candidates; nothing when there is no deck or when it is
one of other candidates. -/
def cardsLeft (decks : NameMap Deck) (symbol : Text) (candidates : List Text) : List Text :=
  match decks.get? symbol with
  | some held => if held.source = candidates then held.remaining else []
  | none => []

theorem cardsLeft_insert (decks : NameMap Deck) {symbol other : Text} (deck : Deck)
    (h : Text.lower other = Text.lower symbol) (candidates : List Text) :
    cardsLeft (decks.insert symbol deck) other candidates
      = if deck.source = candidates then deck.remaining else [] := by
  rw [cardsLeft, NameMap.get?_insert_of_lower_eq decks deck h]

theorem cardsLeft_insert_of_ne (decks : NameMap Deck) {symbol other : Text} (deck : Deck)
    (h : Text.lower other ≠ Text.lower symbol) (candidates : List Text) :
    cardsLeft (decks.insert symbol deck) other candidates = cardsLeft decks other candidates := by
  rw [cardsLeft, NameMap.get?_insert_of_lower_ne decks deck h, cardsLeft]

/-- The deck to draw from is what is left, or, when nothing is left, the candidates shuffled. -/
theorem currentDeck_cases (hshuffle : ShufflesTexts σ) (source : σ) (decks : NameMap Deck)
    (symbol : Text) (candidates : List Text) :
    let cards := (Selector.currentDeck source decks symbol candidates).1
    cardsLeft decks symbol candidates ≠ [] ∧ cards = cardsLeft decks symbol candidates ∨
      cardsLeft decks symbol candidates = [] ∧ cards.Perm candidates := by
  have hperm : (RandomSource.shuffle source candidates).1.reverse.Perm candidates :=
    (List.reverse_perm _).trans (hshuffle source candidates)
  cases hget : decks.get? symbol with
  | none => exact .inr ⟨by simp [cardsLeft, hget], by simpa [Selector.currentDeck, hget] using hperm⟩
  | some held =>
    by_cases hsource : held.source = candidates
    · by_cases hremaining : held.remaining = []
      · refine .inr ⟨by simp [cardsLeft, hget, hremaining], ?_⟩
        simpa [Selector.currentDeck, hget, hremaining] using hperm
      · refine .inl ⟨by simpa [cardsLeft, hget, hsource] using hremaining, ?_⟩
        simp [Selector.currentDeck, cardsLeft, hget, hsource, hremaining]
    · refine .inr ⟨by simp [cardsLeft, hget, hsource], ?_⟩
      simpa [Selector.currentDeck, hget, hsource] using hperm

namespace Selector

theorem pick_deck_nil (source : σ) (decks : NameMap Deck) (symbol : Text) :
    (deck source decks).pick symbol [] = ([], deck source decks) := by
  rw [pick, if_pos rfl]

/-- A pick takes the next card of the deck of its symbol, which is the deck held for the same
candidates as long as it has cards, and else the candidates shuffled. -/
theorem pick_deck (hshuffle : ShufflesTexts σ) (source : σ) (decks : NameMap Deck) (symbol : Text)
    {candidates : List Text} (hc : candidates ≠ []) :
    ∃ card rest next,
      (deck source decks).pick symbol candidates
        = (card, deck next (decks.insert symbol ⟨candidates, rest⟩)) ∧
      (cardsLeft decks symbol candidates = card :: rest ∨
        cardsLeft decks symbol candidates = [] ∧ (card :: rest).Perm candidates) := by
  have hcases := currentDeck_cases hshuffle source decks symbol candidates
  obtain ⟨card, rest, hcards⟩ :
      ∃ card rest, (currentDeck source decks symbol candidates).1 = card :: rest := by
    refine List.exists_cons_of_ne_nil fun hnil => ?_
    rcases hcases with ⟨hleft, heq⟩ | ⟨-, hperm⟩
    · exact hleft (heq.symm.trans hnil)
    · exact hc (List.nil_perm.1 (hnil ▸ hperm))
  refine ⟨card, rest, (currentDeck source decks symbol candidates).2, ?_, ?_⟩
  · rw [pick, if_neg hc]
    simp [pickFromDeck, hcards]
  · rw [hcards] at hcases
    rcases hcases with ⟨-, heq⟩ | ⟨hleft, hperm⟩
    · exact .inl heq.symm
    · exact .inr ⟨hleft, hperm⟩

end Selector

/-! ## Decks hold their own candidates -/

/-- Every deck holds only candidates that it was shuffled from. -/
def DecksIntact (decks : NameMap Deck) : Prop :=
  ∀ held ∈ decks.values, held.remaining ⊆ held.source

theorem DecksIntact.empty : DecksIntact ∅ := fun _ h => nomatch h

theorem DecksIntact.insert {decks : NameMap Deck} (h : DecksIntact decks) (symbol : Text)
    {candidates rest : List Text} (hrest : rest ⊆ candidates) :
    DecksIntact (decks.insert symbol ⟨candidates, rest⟩) := by
  intro held hheld
  rcases NameMap.mem_values_insert hheld with rfl | hheld
  · exact hrest
  · exact h held hheld

theorem DecksIntact.cardsLeft_subset {decks : NameMap Deck} (h : DecksIntact decks) (symbol : Text)
    (candidates : List Text) : cardsLeft decks symbol candidates ⊆ candidates := by
  unfold cardsLeft
  split
  · rename_i held hget
    split
    · rename_i hsource
      exact hsource ▸ h held (NameMap.mem_values_of_get? hget)
    · exact List.nil_subset _
  · exact List.nil_subset _

/-- A pick from intact decks is one of the candidates and leaves intact decks. -/
theorem DecksIntact.pick {decks : NameMap Deck} (h : DecksIntact decks)
    (hshuffle : ShufflesTexts σ) (source : σ) (symbol : Text) {candidates : List Text}
    (hc : candidates ≠ []) :
    ∃ card next decks', (Selector.deck source decks).pick symbol candidates
      = (card, .deck next decks') ∧ card ∈ candidates ∧ DecksIntact decks' := by
  obtain ⟨card, rest, next, heq, hcards⟩ := Selector.pick_deck hshuffle source decks symbol hc
  have hsubset : card :: rest ⊆ candidates := by
    rcases hcards with hleft | ⟨-, hperm⟩
    · exact hleft ▸ h.cardsLeft_subset symbol candidates
    · exact hperm.subset
  obtain ⟨hcard, hrest⟩ := List.cons_subset.1 hsubset
  exact ⟨card, next, _, heq, hcard, h.insert symbol hrest⟩

/-- Whatever a deck selector is offered, it answers from what it is offered. -/
theorem DecksIntact.mem_of_exchanges {decks : NameMap Deck} (h : DecksIntact decks)
    (hshuffle : ShufflesTexts σ) (source : σ) (offers : List Offer) :
    ∀ x ∈ Pick.exchanges Selector.pick (.deck source decks) offers,
      x.1.candidates ≠ [] → x.2 ∈ x.1.candidates := by
  induction offers generalizing source decks with
  | nil => exact fun x hx => nomatch hx
  | cons o offers ih =>
    intro x hx hne
    rw [Pick.exchanges_cons] at hx
    by_cases hc : o.candidates = []
    · rw [hc, Selector.pick_deck_nil] at hx
      rcases List.mem_cons.1 hx with rfl | hx
      · exact absurd hc hne
      · exact ih h source x hx hne
    · obtain ⟨card, next, decks', heq, hcard, hintact⟩ := h.pick hshuffle source o.symbol hc
      rw [heq] at hx
      rcases List.mem_cons.1 hx with rfl | hx
      · exact hcard
      · exact ih hintact next x hx hne

/-! ## Rounds -/

/-- Texts that deal candidates over and over, each time all of them. -/
def WholeRounds (candidates dealt : List Text) : Prop :=
  ∃ rounds : List (List Text), (∀ round ∈ rounds, round.Perm candidates) ∧ dealt = rounds.flatten

theorem WholeRounds.nil (candidates : List Text) : WholeRounds candidates [] :=
  ⟨[], by simp, rfl⟩

theorem WholeRounds.append {candidates dealt round : List Text} (h : WholeRounds candidates dealt)
    (hround : round.Perm candidates) : WholeRounds candidates (dealt ++ round) := by
  obtain ⟨rounds, hrounds, rfl⟩ := h
  refine ⟨rounds ++ [round], fun r hr => ?_, by simp⟩
  rcases List.mem_append.1 hr with hr | hr
  · exact hrounds r hr
  · exact List.mem_singleton.1 hr ▸ hround

/-- The picks of the round `k`, counted from zero, when each round has `size` picks. -/
def roundOf (size k : Nat) (picks : List Text) : List Text := (picks.drop (k * size)).take size

theorem roundOf_prefix {picks more : List Text} (h : picks <+: more) (size k : Nat) :
    roundOf size k picks <+: roundOf size k more := (h.drop _).take _

/-- Among whole rounds each round is one of them, or empty when there are no more. -/
theorem WholeRounds.roundOf_cases {candidates dealt : List Text} (h : WholeRounds candidates dealt)
    (k : Nat) : roundOf candidates.length k dealt = [] ∨
      (roundOf candidates.length k dealt).Perm candidates := by
  obtain ⟨rounds, hrounds, rfl⟩ := h
  induction rounds generalizing k with
  | nil => exact .inl (by simp [roundOf])
  | cons round rounds ih =>
    obtain ⟨hround, hrest⟩ := List.forall_mem_cons.1 hrounds
    cases k with
    | zero =>
      have hfirst : roundOf candidates.length 0 (round :: rounds).flatten = round := by
        simp [roundOf, ← hround.length_eq]
      rw [hfirst]
      exact .inr hround
    | succ k =>
      have hnext : roundOf candidates.length (k + 1) (round :: rounds).flatten
          = roundOf candidates.length k rounds.flatten := by
        have hk : (k + 1) * candidates.length = round.length + k * candidates.length := by
          rw [hround.length_eq, Nat.succ_mul, Nat.add_comm]
        rw [roundOf, hk, List.flatten_cons, List.drop_length_add_append, roundOf]
      rw [hnext]
      exact ih k hrest

/-- When picks and what is left of a deck are whole rounds, the picks never hold a candidate more
often than a round does, and all candidates once the round is complete. -/
theorem WholeRounds.roundOf_picks {candidates picks left : List Text}
    (h : WholeRounds candidates (picks ++ left)) (k : Nat) :
    (roundOf candidates.length k picks).Subperm candidates ∧
      ((k + 1) * candidates.length ≤ picks.length →
        (roundOf candidates.length k picks).Perm candidates) := by
  have hprefix := roundOf_prefix (List.prefix_append picks left) candidates.length k
  have hsub : (roundOf candidates.length k picks).Subperm candidates := by
    rcases h.roundOf_cases k with hnil | hperm
    · rw [hnil, List.prefix_nil] at hprefix
      exact hprefix ▸ List.nil_subperm
    · exact hprefix.sublist.subperm.trans hperm.subperm
  refine ⟨hsub, fun hcomplete => hsub.perm_of_length_le ?_⟩
  have hk : (k + 1) * candidates.length = k * candidates.length + candidates.length :=
    Nat.succ_mul k candidates.length
  rw [roundOf, List.length_take, List.length_drop]
  omega

/-! ## Picks for one symbol -/

/-- After a request the picks go on as whole rounds: a card taken from the deck is no longer left,
and a deck is shuffled when nothing is left. -/
theorem WholeRounds.draw {candidates picks left : List Text} {card : Text} {rest : List Text}
    (h : WholeRounds candidates (picks ++ left))
    (hcards : left = card :: rest ∨ left = [] ∧ (card :: rest).Perm candidates) :
    WholeRounds candidates (picks ++ [card] ++ rest) := by
  rw [List.append_assoc, List.singleton_append]
  rcases hcards with rfl | ⟨rfl, hperm⟩
  · exact h
  · rw [List.append_nil] at h
    exact h.append hperm

/-- As long as the same candidates are offered for a symbol, whole rounds of them are dealt, up to
what is left of the deck. -/
theorem wholeRounds_of_exchanges (hshuffle : ShufflesTexts σ) (source : σ) {decks : NameMap Deck}
    {symbol : Text} {candidates picks : List Text}
    (h : WholeRounds candidates (picks ++ cardsLeft decks symbol candidates)) {offers : List Offer}
    (hoffers : ∀ o ∈ offers, o.isFor symbol = true → o.candidates = candidates) :
    ∃ left, WholeRounds candidates
      (picks ++ Pick.picksFor Selector.pick symbol (.deck source decks) offers ++ left) := by
  induction offers generalizing source decks picks with
  | nil => exact ⟨_, by simpa using h⟩
  | cons o offers ih =>
    obtain ⟨ho, hrest⟩ := List.forall_mem_cons.1 hoffers
    rw [Pick.picksFor_cons]
    by_cases hc : o.candidates = []
    · have hother : o.isFor symbol = false := by simp [Offer.isFor, hc]
      rw [hother, hc, Selector.pick_deck_nil]
      exact ih source h hrest
    · obtain ⟨card, rest, next, heq, hcards⟩ :=
        Selector.pick_deck hshuffle source decks o.symbol hc
      rw [heq]
      by_cases hname : Text.lower o.symbol = Text.lower symbol
      · have hfor : o.isFor symbol = true := (o.isFor_iff symbol).2 ⟨hname, hc⟩
        have hleft : cardsLeft decks o.symbol o.candidates = cardsLeft decks symbol candidates := by
          rw [ho hfor, cardsLeft, cardsLeft, NameMap.get?_congr decks hname]
        have hnext : WholeRounds candidates (picks ++ [card]
            ++ cardsLeft (decks.insert o.symbol ⟨o.candidates, rest⟩) symbol candidates) := by
          rw [cardsLeft_insert decks _ hname.symm, if_pos (ho hfor)]
          exact h.draw (by rw [← hleft, ← ho hfor]; exact hcards)
        rw [if_pos hfor, ← List.append_assoc]
        exact ih next hnext hrest
      · have hother : o.isFor symbol = false := by simp [Offer.isFor, hname]
        rw [hother]
        refine ih next ?_ hrest
        rw [cardsLeft_insert_of_ne decks _ (Ne.symm hname)]
        exact h

/-- The deck of a symbol is one of the candidates that were offered for it last. -/
theorem source_of_exchanges (hshuffle : ShufflesTexts σ) (source : σ) (symbol : Text)
    (offers : List Offer) :
    ∃ next decks, Pick.after Selector.pick (.deck source ∅) offers = .deck next decks ∧
      ∀ held, decks.get? symbol = some held →
        ∃ o, (offers.filter (·.isFor symbol)).getLast? = some o ∧ held.source = o.candidates := by
  induction offers using List.reverseRecOn with
  | nil => exact ⟨source, ∅, rfl, fun _ h => nomatch h⟩
  | append_singleton offers o ih =>
    obtain ⟨next, decks, hafter, hdecks⟩ := ih
    rw [Pick.after_append, hafter, Pick.after_cons, Pick.after_nil, List.filter_append]
    by_cases hc : o.candidates = []
    · have hother : o.isFor symbol = false := by simp [Offer.isFor, hc]
      rw [hc, Selector.pick_deck_nil]
      exact ⟨next, decks, rfl, by simpa [hother] using hdecks⟩
    · obtain ⟨card, rest, next', heq, -⟩ := Selector.pick_deck hshuffle next decks o.symbol hc
      rw [heq]
      refine ⟨next', _, rfl, fun held hheld => ?_⟩
      by_cases hname : Text.lower o.symbol = Text.lower symbol
      · have hfor : o.isFor symbol = true := (o.isFor_iff symbol).2 ⟨hname, hc⟩
        rw [NameMap.get?_insert_of_lower_eq decks _ hname.symm] at hheld
        cases hheld
        exact ⟨o, by simp [hfor], rfl⟩
      · have hother : o.isFor symbol = false := by simp [Offer.isFor, hname]
        rw [NameMap.get?_insert_of_lower_ne decks _ (Ne.symm hname)] at hheld
        simpa [hother] using hdecks held hheld

/-- A deck selector deals in rounds. Let the same candidates be offered for a symbol from some offer
on, with any other offers in between, and let them not be the ones offered for it last before that:
then each complete round of picks is a permutation of the candidates, and a round that is not
complete holds no candidate more often than they do. From the first offer on every answer is one of
the candidates of its own offer, so none comes from candidates that were offered earlier. -/
theorem deck_deals_in_rounds (hshuffle : ShufflesTexts σ) (source : σ) (symbol : Text)
    (candidates : List Text) (earlier later : List Offer)
    (hearlier : ∀ o, (earlier.filter (·.isFor symbol)).getLast? = some o →
      o.candidates ≠ candidates)
    (hlater : ∀ o ∈ later, o.isFor symbol = true → o.candidates = candidates) :
    let pick : Pick (Selector σ) := Selector.pick
    let start : Selector σ := .deck source ∅
    let picks := pick.picksFor symbol (pick.after start earlier) later
    (∀ k, (k + 1) * candidates.length ≤ picks.length →
      (roundOf candidates.length k picks).Perm candidates) ∧
    (∀ k, (roundOf candidates.length k picks).Subperm candidates) ∧
    ∀ x ∈ pick.exchanges start (earlier ++ later), x.1.candidates ≠ [] → x.2 ∈ x.1.candidates := by
  intro pick start picks
  obtain ⟨next, decks, hafter, hdecks⟩ := source_of_exchanges hshuffle source symbol earlier
  -- The deck of the symbol, if it has one, is a deck of other candidates.
  have hempty : cardsLeft decks symbol candidates = [] := by
    unfold cardsLeft
    split
    · rename_i held hget
      obtain ⟨o, ho, hsource⟩ := hdecks held hget
      exact if_neg fun heq => hearlier o ho (hsource.symm.trans heq)
    · rfl
  have hstart : WholeRounds candidates ([] ++ cardsLeft decks symbol candidates) := by
    rw [hempty]
    exact .nil candidates
  obtain ⟨left, hrounds⟩ := wholeRounds_of_exchanges hshuffle next hstart hlater
  have hpicks : WholeRounds candidates (picks ++ left) := by
    show WholeRounds candidates (Pick.picksFor _ _ (Pick.after Selector.pick start earlier) _ ++ left)
    rw [hafter]
    exact hrounds
  exact ⟨fun k => (hpicks.roundOf_picks k).2, fun k => (hpicks.roundOf_picks k).1,
    DecksIntact.empty.mem_of_exchanges hshuffle source (earlier ++ later)⟩

/-- Offers for an animal, between others: first a cat or an owl, from then on a cat or a dog. -/
def animalOffers : List Offer × List Offer :=
  ([⟨"animal".toList, ["cat".toList, "owl".toList]⟩, ⟨"colour".toList, ["red".toList]⟩],
    [⟨"Animal".toList, ["cat".toList, "dog".toList]⟩, ⟨"animal".toList, []⟩,
      ⟨"colour".toList, ["red".toList, "blue".toList]⟩,
      ⟨"animal".toList, ["cat".toList, "dog".toList]⟩,
      ⟨"ANIMAL".toList, ["cat".toList, "dog".toList]⟩, ⟨"colour".toList, ["red".toList]⟩,
      ⟨"animal".toList, ["cat".toList, "dog".toList]⟩])

/-- The four animals picked after the owl has left come in two rounds of a cat and a dog. -/
theorem animals_come_in_rounds :
    let pick : Pick (Selector MersenneTwister) := Selector.pick
    let start : Selector MersenneTwister := .deck (MersenneTwister.ofSeed 7) ∅
    let picks := pick.picksFor "animal".toList (pick.after start animalOffers.1) animalOffers.2
    picks.length = 4 ∧
      (roundOf 2 0 picks).Perm ["cat".toList, "dog".toList] ∧
      (roundOf 2 1 picks).Perm ["cat".toList, "dog".toList] := by
  intro pick start picks
  have hlast : (animalOffers.1.filter (·.isFor "animal".toList)).getLast?
      = some ⟨"animal".toList, ["cat".toList, "owl".toList]⟩ := by decide +kernel
  have hearlier : ∀ o, (animalOffers.1.filter (·.isFor "animal".toList)).getLast? = some o →
      o.candidates ≠ ["cat".toList, "dog".toList] := by
    intro o ho
    rw [hlast] at ho
    cases ho
    decide
  have hlater : ∀ o ∈ animalOffers.2, o.isFor "animal".toList = true →
      o.candidates = ["cat".toList, "dog".toList] := by decide +kernel
  have hlength : picks.length = 4 := by
    rw [Pick.length_picksFor]
    decide +kernel
  obtain ⟨hrounds, -, -⟩ := deck_deals_in_rounds shufflesTexts_of_lawful (MersenneTwister.ofSeed 7)
    "animal".toList ["cat".toList, "dog".toList] animalOffers.1 animalOffers.2 hearlier hlater
  have hfirst := hrounds 0 (le_trans (by decide) hlength.ge)
  have hsecond := hrounds 1 (le_trans (by decide) hlength.ge)
  exact ⟨hlength, hfirst, hsecond⟩

end TextGrammar
