import TextGrammar.Proofs.Select.Answers

/-!
# Walking along the candidates

A sequential selector remembers one number for each name: the place behind the one that it picked
last. The number is taken modulo the length of the list only when the name is asked for again, and
that list may be another one by then. So the walk is told by the lists that were offered for a
symbol, whatever was offered for others in between: the first pick is the first text of its list,
and each later pick lies one place behind the pick before it, counted round in its own list.

## Main definitions

* `offeredFor` — the lists of candidates that are offered for a symbol.
* `walkPlace` — the places that a walk along lists of texts comes to.

## Main results

* `Selector.pick_sequential` — what one pick does.
* `getElem?_picksFor_sequential` — the picks for a symbol lie at the places of the walk along the
  lists that are offered for it.
* `sequential_walks` — what a sequential selector picks for a symbol.
-/

namespace TextGrammar

/-- The lists of candidates that are offered for a symbol, in order; an offer without candidates
does not count. -/
def offeredFor (symbol : Text) (offers : List Offer) : List (List Text) :=
  (offers.filter (·.isFor symbol)).map (·.candidates)

/-- The place of the pick from the list `n`, counted from zero, when the place `due` comes next:
each place is the one behind the place before, counted round in the list that is picked from. -/
def walkPlace (due : Nat) (lists : List (List Text)) : Nat → Nat
  | 0 => due % (lists.getD 0 []).length
  | n + 1 => (walkPlace due lists n + 1) % (lists.getD (n + 1) []).length

/-! ## Lists and places -/

section Lists

variable {symbol : Text} {o : Offer} (offers : List Offer)

theorem offeredFor_cons_of_isFor (h : o.isFor symbol = true) :
    offeredFor symbol (o :: offers) = o.candidates :: offeredFor symbol offers := by
  simp [offeredFor, h]

theorem offeredFor_cons_of_not_isFor (h : o.isFor symbol = false) :
    offeredFor symbol (o :: offers) = offeredFor symbol offers := by
  simp [offeredFor, h]

theorem length_offeredFor (symbol : Text) (offers : List Offer) :
    (offeredFor symbol offers).length = offers.countP (·.isFor symbol) := by
  rw [offeredFor, List.length_map, List.countP_eq_length_filter]

/-- No list that counts is empty. -/
theorem ne_nil_of_mem_offeredFor {offers : List Offer} {texts : List Text}
    (h : texts ∈ offeredFor symbol offers) : texts ≠ [] := by
  obtain ⟨o, ho, rfl⟩ := List.mem_map.1 h
  exact ((o.isFor_iff symbol).1 (List.mem_filter.1 ho).2).2

end Lists

section Places

variable (due : Nat) {lists : List (List Text)}

/-- Behind its first list a walk goes on as one that is due one place further. -/
theorem walkPlace_cons_succ (texts : List Text) (lists : List (List Text)) (n : Nat) :
    walkPlace due (texts :: lists) (n + 1) = walkPlace (due % texts.length + 1) lists n := by
  induction n with
  | zero => rfl
  | succ n ih =>
    rw [walkPlace, ih]
    rfl

/-- The place of a list is its due place, counted round in the list. -/
theorem walkPlace_zero_of_getElem? {texts : List Text} (h : lists[0]? = some texts) :
    walkPlace due lists 0 = due % texts.length := by
  rw [walkPlace, List.getD_eq_getElem?_getD, h, Option.getD_some]

theorem walkPlace_succ_of_getElem? {n : Nat} {texts : List Text}
    (h : lists[n + 1]? = some texts) :
    walkPlace due lists (n + 1) = (walkPlace due lists n + 1) % texts.length := by
  rw [walkPlace, List.getD_eq_getElem?_getD, h, Option.getD_some]

/-- A walk never leaves the list that is picked from. -/
theorem walkPlace_lt {n : Nat} {texts : List Text} (h : lists[n]? = some texts)
    (hne : texts ≠ []) : walkPlace due lists n < texts.length := by
  have hpos : 0 < texts.length := List.length_pos_iff.2 hne
  cases n with
  | zero =>
    rw [walkPlace_zero_of_getElem? due h]
    exact Nat.mod_lt _ hpos
  | succ n =>
    rw [walkPlace_succ_of_getElem? due h]
    exact Nat.mod_lt _ hpos

/-- As long as the list stays the same the walk goes round in it. -/
theorem walkPlace_of_constant {k : Nat} {candidates : List Text} (hk : walkPlace due lists k = 0)
    {n : Nat} (h : ∀ i ≤ n, lists[k + i]? = some candidates) :
    walkPlace due lists (k + n) = n % candidates.length := by
  induction n with
  | zero => rw [Nat.add_zero, hk, Nat.zero_mod]
  | succ n ih =>
    have hbefore := ih fun i hi => h i (Nat.le_succ_of_le hi)
    have hlast : lists[k + n + 1]? = some candidates := h (n + 1) le_rfl
    calc walkPlace due lists (k + (n + 1))
        = (walkPlace due lists (k + n) + 1) % candidates.length :=
          walkPlace_succ_of_getElem? due hlast
      _ = (n % candidates.length + 1) % candidates.length := by rw [hbefore]
      _ = (n + 1) % candidates.length := Nat.mod_add_mod n candidates.length 1

end Places

variable {σ : Type} [RandomSource σ]

/-! ## Picks -/

/-- A pick takes the text at the place that is due for its symbol, counted round, and the place
behind it is due next. -/
theorem Selector.pick_sequential (next : NameMap Nat) (symbol : Text) {candidates : List Text}
    (hc : candidates ≠ []) :
    (sequential next : Selector σ).pick symbol candidates
      = (candidates.getD ((next.get? symbol).getD 0 % candidates.length) [],
          sequential (next.insert symbol ((next.get? symbol).getD 0 % candidates.length + 1))) := by
  rw [pick, if_neg hc]
  rfl

/-- The picks for a symbol lie at the places of the walk along the lists that are offered for it,
beginning with the place that is due. -/
theorem getElem?_picksFor_sequential (next : NameMap Nat) (symbol : Text) (offers : List Offer)
    (n : Nat) :
    (Pick.picksFor Selector.pick symbol (.sequential next : Selector σ) offers)[n]?
      = (offeredFor symbol offers)[n]?.map fun texts =>
          texts.getD (walkPlace ((next.get? symbol).getD 0) (offeredFor symbol offers) n) [] := by
  induction offers generalizing next n with
  | nil => rfl
  | cons o offers ih =>
    rw [Pick.picksFor_cons]
    by_cases hc : o.candidates = []
    · have hother : o.isFor symbol = false := by simp [Offer.isFor, hc]
      rw [hother, hc, Selector.pick_nil, offeredFor_cons_of_not_isFor offers hother]
      exact ih next n
    · rw [Selector.pick_sequential next o.symbol hc]
      by_cases hname : Text.lower o.symbol = Text.lower symbol
      · have hfor : o.isFor symbol = true := (o.isFor_iff symbol).2 ⟨hname, hc⟩
        rw [if_pos hfor, offeredFor_cons_of_isFor offers hfor, NameMap.get?_congr next hname]
        cases n with
        | zero => rfl
        | succ n =>
          -- The place behind this pick is due in what is left of the offers.
          have hrest := ih (next.insert o.symbol
            ((next.get? symbol).getD 0 % o.candidates.length + 1)) n
          rw [NameMap.get?_insert_of_lower_eq next _ hname.symm, Option.getD_some] at hrest
          rw [walkPlace_cons_succ]
          exact hrest
      · have hother : o.isFor symbol = false := by simp [Offer.isFor, hname]
        rw [hother, offeredFor_cons_of_not_isFor offers hother]
        have hrest := ih (next.insert o.symbol
          ((next.get? o.symbol).getD 0 % o.candidates.length + 1)) n
        rw [NameMap.get?_insert_of_lower_ne next _ (Ne.symm hname)] at hrest
        exact hrest

/-- The pick from a list is the text at the place of the walk, which lies inside the list. -/
theorem getElem?_picksFor_of_offered (next : NameMap Nat) {symbol : Text} {offers : List Offer}
    {n : Nat} {texts : List Text} (h : (offeredFor symbol offers)[n]? = some texts) :
    walkPlace ((next.get? symbol).getD 0) (offeredFor symbol offers) n < texts.length ∧
      (Pick.picksFor Selector.pick symbol (.sequential next : Selector σ) offers)[n]?
        = texts[walkPlace ((next.get? symbol).getD 0) (offeredFor symbol offers) n]? := by
  have hlt := walkPlace_lt ((next.get? symbol).getD 0) h
    (ne_nil_of_mem_offeredFor (List.mem_of_getElem? h))
  refine ⟨hlt, ?_⟩
  rw [getElem?_picksFor_sequential, h, Option.map_some, List.getD_eq_getElem _ _ hlt,
    List.getElem?_eq_getElem hlt]

/-- Where the same lists are offered for a symbol the same picks are made for it, whatever else is
offered in between. -/
theorem picksFor_sequential_congr (next : NameMap Nat) {symbol : Text} {offers more : List Offer}
    (h : offeredFor symbol more = offeredFor symbol offers) :
    Pick.picksFor Selector.pick symbol (.sequential next : Selector σ) more
      = Pick.picksFor Selector.pick symbol (.sequential next : Selector σ) offers := by
  refine List.ext_getElem? fun n => ?_
  rw [getElem?_picksFor_sequential, getElem?_picksFor_sequential, h]

/-- Every offer without candidates is answered with nothing, whatever was offered before it. -/
theorem Selector.eq_nil_of_exchanges (selector : Selector σ) (offers : List Offer) :
    ∀ x ∈ Pick.exchanges Selector.pick selector offers, x.1.candidates = [] → x.2 = [] := by
  induction offers generalizing selector with
  | nil => exact fun x hx => nomatch hx
  | cons o offers ih =>
    intro x hx hnil
    rw [Pick.exchanges_cons] at hx
    rcases List.mem_cons.1 hx with rfl | hx
    · have hanswer : (selector.pick o.symbol []).1 = [] := by rw [pick_nil]
      rwa [← hnil] at hanswer
    · exact ih _ x hx hnil

/-- A sequential selector walks along the lists that are offered for each symbol, in any case.
There is one pick for each list that is not empty. The first one is the first text, and each later
one lies one place behind the one before, counted round in the list now offered. So from a pick of a
first text on, as long as the list stays the same, the pick `n` is its text `n`, counted round.
Offers without candidates are answered with nothing and, like all that is offered for other symbols,
leave the walk as it is: equal lists make equal picks. -/
theorem sequential_walks (symbol : Text) (offers : List Offer) :
    let pick : Pick (Selector σ) := Selector.pick
    let start : Selector σ := .sequential ∅
    let lists := offeredFor symbol offers
    let picks := pick.picksFor symbol start offers
    let place := walkPlace 0 lists
    picks.length = lists.length ∧
    place 0 = 0 ∧
    (∀ n texts, lists[n + 1]? = some texts → place (n + 1) = (place n + 1) % texts.length) ∧
    (∀ n texts, lists[n]? = some texts →
      place n < texts.length ∧ picks[n]? = texts[place n]?) ∧
    (∀ k candidates n, place k = 0 → (∀ i ≤ n, lists[k + i]? = some candidates) →
      picks[k + n]? = candidates[n % candidates.length]?) ∧
    (∀ x ∈ pick.exchanges start offers, x.1.candidates = [] → x.2 = []) ∧
    ∀ more, offeredFor symbol more = lists → pick.picksFor symbol start more = picks := by
  intro pick start lists picks place
  have hpick : ∀ n texts, lists[n]? = some texts →
      place n < texts.length ∧ picks[n]? = texts[place n]? :=
    fun n texts htexts => getElem?_picksFor_of_offered ∅ htexts
  refine ⟨?_, Nat.zero_mod _, fun n texts => walkPlace_succ_of_getElem? 0, hpick, ?_,
    Selector.eq_nil_of_exchanges start offers, fun more => picksFor_sequential_congr ∅⟩
  · rw [Pick.length_picksFor, length_offeredFor]
  · intro k candidates n hk hsame
    have hplace : place (k + n) = n % candidates.length := walkPlace_of_constant 0 hk hsame
    rw [(hpick (k + n) candidates (hsame n le_rfl)).2, hplace]

/-- The list of animals shrinks when two of three have been picked: the third pick is the first text
of the shorter list. -/
example :
    let offers : List Offer := [⟨"animal".toList, ["cat".toList, "dog".toList, "owl".toList]⟩,
      ⟨"colour".toList, ["red".toList]⟩, ⟨"Animal".toList, []⟩,
      ⟨"ANIMAL".toList, ["cat".toList, "dog".toList, "owl".toList]⟩,
      ⟨"animal".toList, ["hen".toList, "pig".toList]⟩]
    Pick.picksFor Selector.pick "animal".toList (.sequential ∅ : Selector MersenneTwister) offers
      = ["cat".toList, "dog".toList, "hen".toList] := by
  decide +kernel

end TextGrammar
