import TextGrammar.Proofs.Rule.WellFormed
import Mathlib.Data.List.Forall2

/-!
# A walk sees each construct once

The two walks over a rule go down into the rules of its bindings, and these into the rules of
theirs. The constructs that they report lie one inside the other or one behind the other, and no two
of them share the characters that they begin and end with. So a walk reports no construct twice, it
reports no more constructs than there are delimiters for, and it ends: each rule that it goes down
into has an opening bracket less than the rule around it.

## Main definitions

* `Holds` — a text holds constructs, one inside the other or one behind the other.
* `AtOwnPlaces` — constructs are found in a text, each at a place of its own.
* `Walker` — what a walk reports; `referenceWalker` and `bindingWalker` are the two.
* `Walker.within` — a walk that may go down so many levels of rules and no further.

## Main results

* `Holds.length_le`, `Holds.atOwnPlaces` — constructs that a text holds are no more than it has
  delimiters for, and begin at places of their own.
* `Walker.Gives.holds` — a rule holds what a walk reports of it.
* `Walker.Gives.within_eq_some` — a walk ends within as many levels as there are opening brackets,
  and one more.
* `walks_report_once` — all of this, of both walks.
-/

namespace TextGrammar

/-! ## Places of their own -/

section AtOwnPlaces

variable {α : Type} {Found : α → Text → Prop}

/-- Constructs are found in a text, each at a place of its own, in the order of the places.
`Found x rest` says that the construct `x` stands where the text `rest` begins. -/
def AtOwnPlaces (Found : α → Text → Prop) (t : Text) (xs : List α) : Prop :=
  ∃ places : List Nat, places.Pairwise (· < ·) ∧
    List.Forall₂ (fun place x => place < t.length ∧ Found x (t.drop place)) places xs

namespace AtOwnPlaces

theorem nothing (t : Text) : AtOwnPlaces Found t [] := ⟨[], .nil, .nil⟩

/-- A construct at the front of a text comes before all that are found behind its first
character. -/
theorem cons {c : Char} {t : Text} {x : α} {xs : List α} (hx : Found x (c :: t))
    (ht : AtOwnPlaces Found t xs) : AtOwnPlaces Found (c :: t) (x :: xs) := by
  obtain ⟨places, hlt, hfound⟩ := ht
  refine ⟨0 :: places.map (· + 1), List.pairwise_cons.2 ⟨?_, ?_⟩,
    .cons ⟨Nat.succ_pos _, hx⟩ (List.forall₂_map_left_iff.2 ?_)⟩
  · intro place hp
    obtain ⟨before, -, rfl⟩ := List.mem_map.1 hp
    exact Nat.succ_pos before
  · exact hlt.map (· + 1) fun p q hpq => Nat.succ_lt_succ hpq
  · exact hfound.imp fun place y hy => ⟨Nat.succ_lt_succ hy.1, hy.2⟩

theorem imp {Other : α → Text → Prop} (h : ∀ x rest, Found x rest → Other x rest) {t : Text}
    {xs : List α} (ht : AtOwnPlaces Found t xs) : AtOwnPlaces Other t xs := by
  obtain ⟨places, hlt, hfound⟩ := ht
  exact ⟨places, hlt, hfound.imp fun place x hx => ⟨hx.1, h x _ hx.2⟩⟩

/-- Of two texts, one after the other, the constructs of the first come first. -/
theorem append {s t : Text} {xs ys : List α} (hs : AtOwnPlaces Found s xs)
    (hmore : ∀ x s t, Found x s → Found x (s ++ t)) (ht : AtOwnPlaces Found t ys) :
    AtOwnPlaces Found (s ++ t) (xs ++ ys) := by
  obtain ⟨places, hlt, hfound⟩ := hs
  obtain ⟨more, hltmore, hfoundmore⟩ := ht
  have hend : ∀ place ∈ places, place < s.length := ((List.forall₂_and_left places xs).1 hfound).1
  refine ⟨places ++ more.map (s.length + ·), List.pairwise_append.2 ⟨hlt, ?_, ?_⟩,
    List.rel_append (hfound.imp ?_) (List.forall₂_map_left_iff.2 (hfoundmore.imp ?_))⟩
  · exact hltmore.map _ fun p q hpq => Nat.add_lt_add_left hpq s.length
  · intro place hp later hl
    obtain ⟨behind, -, rfl⟩ := List.mem_map.1 hl
    exact Nat.lt_of_lt_of_le (hend place hp) (Nat.le_add_right _ behind)
  · rintro place x ⟨hp, hx⟩
    refine ⟨by rw [List.length_append]; omega, ?_⟩
    rw [List.drop_append_of_le_length (Nat.le_of_lt hp)]
    exact hmore x _ t hx
  · rintro place x ⟨hp, hx⟩
    refine ⟨by rw [List.length_append]; omega, ?_⟩
    rwa [List.drop_length_add_append]

end AtOwnPlaces

end AtOwnPlaces

/-! ## Constructs inside and behind each other -/

section Holds

variable {α β : Type} {Takes : α → Text → Prop}

/-- A text holds constructs, listed in the order in which they begin. A construct takes up a stretch
of the text whose first and last character belong to it alone: those listed next lie inside the
stretch, and all others lie behind it. -/
inductive Holds (Takes : α → Text → Prop) : Text → List α → Prop where
  /-- Nothing is left. -/
  | nil : Holds Takes [] []
  /-- A character that no construct begins or ends with. -/
  | other (c : Char) {t : Text} {xs : List α} (ht : Holds Takes t xs) : Holds Takes (c :: t) xs
  /-- A construct, with those inside it and those behind it. -/
  | construct {c d : Char} {s t : Text} {x : α} {inside behind : List α}
    (hx : Takes x (c :: s ++ [d])) (hs : Holds Takes s inside) (ht : Holds Takes t behind) :
    Holds Takes (c :: s ++ d :: t) (x :: inside ++ behind)

namespace Holds

/-- Of every text no constructs may be listed. -/
theorem nothing (t : Text) : Holds Takes t [] := by
  induction t with
  | nil => exact .nil
  | cons c t ih => exact .other c ih

/-- A text behind another holds its constructs behind those of the other. -/
theorem append {s t : Text} {xs ys : List α} (hs : Holds Takes s xs) (ht : Holds Takes t ys) :
    Holds Takes (s ++ t) (xs ++ ys) := by
  induction hs with
  | nil => exact ht
  | other c _ ih => exact .other c ih
  | construct hx hinside _ _ ih =>
    have h := Holds.construct hx hinside ih
    simpa using h

/-- Texts one after the other hold what each of them holds. -/
theorem flatMap {l : List β} {f : β → Text} {g : β → List α}
    (h : ∀ x ∈ l, Holds Takes (f x) (g x)) : Holds Takes (l.flatMap f) (l.flatMap g) := by
  induction l with
  | nil => exact .nil
  | cons x l ih =>
    obtain ⟨hx, hl⟩ := List.forall_mem_cons.1 h
    exact hx.append (ih hl)

/-- Between two characters a text holds what it holds alone and, in front, the construct that the
whole may be. -/
theorem between {c d : Char} {s : Text} {o : Option α} {inside : List α}
    (hs : Holds Takes s inside) (ho : ∀ x ∈ o, Takes x (c :: s ++ [d])) :
    Holds Takes (c :: s ++ [d]) (o.toList ++ inside) := by
  cases o with
  | none => simpa using (hs.append (nothing [d])).other c
  | some x => simpa using hs.construct (ho x rfl) (nothing [])

/-- Each construct that a text holds takes up a stretch of it. -/
theorem exists_isInfix {t : Text} {xs : List α} (h : Holds Takes t xs) {x : α} (hx : x ∈ xs) :
    ∃ piece, Takes x piece ∧ piece <:+: t := by
  induction h with
  | nil => cases hx
  | other c _ ih =>
    obtain ⟨piece, hpiece, hin⟩ := ih hx
    exact ⟨piece, hpiece, hin.trans (List.suffix_cons c _).isInfix⟩
  | @construct c d s t y inside behind hy _ _ ihs iht =>
    rw [List.cons_append, List.mem_cons, List.mem_append] at hx
    rcases hx with rfl | hx | hx
    · exact ⟨_, hy, [], t, by simp⟩
    · obtain ⟨piece, hpiece, hin⟩ := ihs hx
      exact ⟨piece, hpiece, hin.trans ⟨[c], d :: t, rfl⟩⟩
    · obtain ⟨piece, hpiece, hin⟩ := iht hx
      exact ⟨piece, hpiece, hin.trans ⟨c :: s ++ [d], [], by simp⟩⟩

/-- When the two characters around a construct weigh `k` at least, a text weighs `k` for each
construct that it holds. -/
theorem length_le (k : Nat) (weight : Text → Nat)
    (hweight : ∀ s t, weight (s ++ t) = weight s + weight t)
    (hk : ∀ x c s d, Takes x (c :: s ++ [d]) → k ≤ weight [c] + weight [d])
    {t : Text} {xs : List α} (h : Holds Takes t xs) : k * xs.length ≤ weight t := by
  induction h with
  | nil => exact Nat.zero_le _
  | other c _ ih =>
    rw [← List.singleton_append, hweight]
    omega
  | @construct c d s t x inside behind hx _ _ ihs iht =>
    have hsum : weight (c :: s ++ d :: t) = weight [c] + weight s + (weight [d] + weight t) :=
      calc weight (c :: s ++ d :: t) = weight ([c] ++ s ++ ([d] ++ t)) := rfl
        _ = weight [c] + weight s + (weight [d] + weight t) := by rw [hweight, hweight, hweight]
    have hown := hk x c s d hx
    rw [hsum, List.cons_append, List.length_cons, List.length_append, Nat.mul_succ, Nat.mul_add]
    omega

/-- The constructs that a text holds begin at places of their own. -/
theorem atOwnPlaces {t : Text} {xs : List α} (h : Holds Takes t xs) :
    AtOwnPlaces (fun x rest => ∃ piece, Takes x piece ∧ piece <+: rest) t xs := by
  have hmore : ∀ x s t, (∃ piece, Takes x piece ∧ piece <+: s) →
      ∃ piece, Takes x piece ∧ piece <+: s ++ t :=
    fun x s t ⟨piece, hpiece, hs⟩ => ⟨piece, hpiece, hs.trans (List.prefix_append s t)⟩
  induction h with
  | nil => exact .nothing []
  | other c _ ih => exact (AtOwnPlaces.nothing [c]).append hmore ih
  | @construct c d s t x inside behind hx _ _ ihs iht =>
    -- Up to its last character the construct comes first, then those inside it.
    have hin := (ihs.append hmore (.nothing [d])).cons ⟨_, hx, List.prefix_rfl⟩
    have h := hin.append hmore iht
    simpa using h

end Holds

end Holds

/-! ## Walks -/

section Reported

variable {α β : Type}

/-- What is reported of each of some things, one after the other, when all of them have an
answer. -/
def reported (f : β → Option (List α)) (xs : List β) : Option (List α) :=
  (xs.mapM f).map List.flatten

theorem reported_eq_some {f : β → Option (List α)} {g : β → List α} {xs : List β}
    (h : ∀ x ∈ xs, f x = some (g x)) : reported f xs = some (xs.flatMap g) := by
  have hmap : xs.mapM f = some (xs.map g) := by
    induction xs with
    | nil => rfl
    | cons x xs ih =>
      obtain ⟨hx, hxs⟩ := List.forall_mem_cons.1 h
      rw [List.mapM_cons, hx, ih hxs]
      rfl
  rw [reported, hmap, Option.map_some, List.flatMap_def]

end Reported

/-- What a walk over a rule reports of the constructs that it comes to. -/
structure Walker (α : Type) where
  /-- What it reports of a reference. -/
  ofReference : Reference → Option α
  /-- What it reports of a binding. -/
  ofBinding : Binding → Option α

/-- The walk that reports references, and the reference that a binding without a rule asks for. -/
def referenceWalker : Walker Reference where
  ofReference := some
  ofBinding b := if b.rule = none then some b.asReference else none

/-- The walk that reports bindings. -/
def bindingWalker : Walker Binding where
  ofReference _ := none
  ofBinding := some

namespace Walker

variable {α : Type} (w : Walker α)

/-- What a walk reports of a part of a rule by itself. -/
def ofNode (node : Node) : List α := (node.reference?.bind w.ofReference).toList

/-- What a walk reports of a binding, and of the rule that it goes down into. -/
def below (walk : Text → Option (List α)) (b : Binding) : Option (List α) :=
  match b.rule with
  | none => some (w.ofBinding b).toList
  | some inner => (walk inner).map ((w.ofBinding b).toList ++ ·)

/-- The walk over a rule when it may go down `levels` levels of rules, the rule itself being the
first; there is no answer when that does not suffice. -/
def within : (levels : Nat) → Text → Option (List α)
  | 0, _ => none
  | levels + 1, rule =>
    reported (fun node => (reported (w.below (within levels)) node.bindings).map (w.ofNode node ++ ·))
      (parse rule)

/-- A function gives what a walk reports when it gives, for each part of a rule in order, what is
reported of the part and then, for each of its bindings in order, what is reported of the binding
and what the function gives for the binding's rule. -/
def Gives (walk : Text → List α) : Prop :=
  ∀ rule, walk rule = (parse rule).flatMap fun node =>
    w.ofNode node ++ node.bindings.flatMap fun b => (w.ofBinding b).toList ++ b.rule.elim [] walk

/-- What is reported takes up a stretch of text: the reference or the binding that it is reported
of. -/
def Takes (x : α) (piece : Text) : Prop :=
  (∃ body, w.ofReference (.ofBody body) = some x ∧ piece = '#' :: body ++ ['#']) ∨
    ∃ b, w.ofBinding b = some x ∧ piece = b.raw

end Walker

/-- The walk over references is one. -/
theorem gives_referencesIn : referenceWalker.Gives referencesIn := by
  intro rule
  rw [referencesIn_eq]
  refine congrArg (fun f => (parse rule).flatMap f) (funext fun node => ?_)
  have hbinding : ∀ b : Binding, b.references =
      (referenceWalker.ofBinding b).toList ++ b.rule.elim [] referencesIn := by
    intro b
    cases hr : b.rule <;> simp [Binding.references, referenceWalker, hr]
  rw [Walker.ofNode, show referenceWalker.ofReference = some from rfl,
    Option.bind_fun_some, funext hbinding]

/-- The walk over bindings is one. -/
theorem gives_bindingsIn : bindingWalker.Gives bindingsIn := by
  intro rule
  rw [bindingsIn_eq]
  refine congrArg (fun f => (parse rule).flatMap f) (funext fun node => ?_)
  have hbinding : ∀ b : Binding, b.withNested =
      (bindingWalker.ofBinding b).toList ++ b.rule.elim [] bindingsIn := by
    intro b
    cases hr : b.rule <;> simp [Binding.withNested, bindingWalker, hr]
  have hnode : bindingWalker.ofNode node = [] := by
    cases node <;> rfl
  rw [hnode, List.nil_append, funext hbinding]

/-! ## What a rule holds -/

/-- The body of a reference holds what its bindings hold. -/
theorem holds_body {α : Type} {Takes : α → Text → Prop} {found : Binding → List α} {body : Text}
    (h : ∀ b ∈ (pathAndBindings body).2, Holds Takes b.raw (found b)) :
    Holds Takes body ((pathAndBindings body).2.flatMap found) := by
  fun_induction pathAndBindings body with
  | case1 => exact .nil
  | case2 t inner rest hc path bindings hp ih =>
    rw [hp] at ih
    obtain ⟨hb, hrest⟩ := List.forall_mem_cons.1 h
    have hboth := hb.append (ih hrest)
    rw [eq_of_closeBinding hc]
    simpa [Binding.raw] using hboth
  | case3 t hc path bindings hp ih =>
    rw [hp] at ih
    exact .other '[' (ih h)
  | case4 c t ho path bindings hp ih =>
    rw [hp] at ih
    exact .other c (ih h)

namespace Walker

variable {α : Type} {w : Walker α} {walk : Text → List α}

/-- A binding holds what is reported of it and of its rule. -/
theorem holds_binding {b : Binding}
    (h : ∀ inner, b.rule = some inner → Holds w.Takes inner (walk inner)) :
    Holds w.Takes b.raw ((w.ofBinding b).toList ++ b.rule.elim [] walk) := by
  have hinner : Holds w.Takes b.inner (b.rule.elim [] walk) := by
    cases hr : b.rule with
    | none => exact .nothing b.inner
    | some inner =>
      rw [Binding.inner, hr]
      exact (Holds.nothing b.name).append (.other ':' (h inner hr))
  exact hinner.between fun x hx => .inr ⟨b, hx, rfl⟩

/-- A part of a rule holds what is reported of it and of its bindings. -/
theorem holds_node {rule : Text} {node : Node} (hn : node ∈ parse rule)
    {found : Binding → List α} (h : ∀ b ∈ node.bindings, Holds w.Takes b.raw (found b)) :
    Holds w.Takes node.raw (w.ofNode node ++ node.bindings.flatMap found) := by
  cases node with
  | text value => exact .nothing value
  | binding b => simpa [ofNode, Node.reference?, Node.bindings] using h b (List.mem_singleton_self b)
  | reference r =>
    obtain ⟨body, -, -, -, rfl⟩ := exists_body_of_mem_parse hn
    exact (holds_body h).between fun x hx => .inl ⟨body, hx, rfl⟩

/-- A rule holds what a walk reports of it. -/
theorem Gives.holds (h : w.Gives walk) (rule : Text) : Holds w.Takes rule (walk rule) := by
  -- By the length of the rule; its parts, as they are written, make up the rule.
  induction hl : rule.length using Nat.strongRecOn generalizing rule with
  | ind n ih =>
    have hparts : Holds w.Takes ((parse rule).flatMap Node.raw) (walk rule) := by
      rw [h rule]
      refine Holds.flatMap fun node hn => holds_node hn fun b hb => holds_binding fun inner hr => ?_
      exact ih inner.length (hl ▸ length_rule_lt hn hb hr) inner rfl
    rwa [flatMap_raw_parse] at hparts

end Walker

/-! ## Where a walk ends -/

/-- A binding that the walk reports, at any depth, is written in the rule. -/
theorem raw_isInfix_of_mem_bindingsIn {rule : Text} {b : Binding} (h : b ∈ bindingsIn rule) :
    b.raw <:+: rule := by
  obtain ⟨piece, hpiece, hin⟩ := (gives_bindingsIn.holds rule).exists_isInfix h
  obtain ⟨body, hnone, -⟩ | ⟨b', hb, rfl⟩ := hpiece
  · cases hnone
  · cases hb
    exact hin

/-- The rule of a binding has an opening bracket less than the rule the binding stands in. -/
theorem count_rule_lt {rule inner : Text} {node : Node} {b : Binding}
    (hn : node ∈ parse rule) (hb : b ∈ node.bindings) (hr : b.rule = some inner) :
    inner.count '[' < rule.count '[' := by
  have hmem : b ∈ bindingsIn rule := by
    rw [bindingsIn_eq]
    exact List.mem_flatMap.2 ⟨node, hn, List.mem_flatMap.2 ⟨b, hb, List.mem_cons_self⟩⟩
  have hcount := (raw_isInfix_of_mem_bindingsIn hmem).sublist.count_le '['
  have hraw : b.raw = ('[' :: b.name ++ [':']) ++ inner ++ [']'] := by
    simp [Binding.raw, Binding.inner, hr]
  rw [hraw, List.count_append, List.count_append, List.cons_append, List.count_cons_self] at hcount
  omega

/-- A walk ends: as many levels of rules as the rule has opening brackets, and one more, suffice. -/
theorem Walker.Gives.within_eq_some {α : Type} {w : Walker α} {walk : Text → List α}
    (h : w.Gives walk) {levels : Nat} {rule : Text} (hlevels : rule.count '[' < levels) :
    w.within levels rule = some (walk rule) := by
  induction levels generalizing rule with
  | zero => exact absurd hlevels (Nat.not_lt_zero _)
  | succ levels ih =>
    rw [Walker.within, h rule]
    refine reported_eq_some fun node hn => ?_
    have hbindings : ∀ b ∈ node.bindings, w.below (w.within levels) b =
        some ((w.ofBinding b).toList ++ b.rule.elim [] walk) := by
      intro b hb
      cases hr : b.rule with
      | none => simp [Walker.below, hr]
      | some inner =>
        have hinner : inner.count '[' < levels :=
          Nat.lt_of_lt_of_le (count_rule_lt hn hb hr) (Nat.le_of_lt_succ hlevels)
        simp [Walker.below, hr, ih hinner]
    rw [reported_eq_some hbindings, Option.map_some]

/-! ## How much a walk reports -/

/-- The characters around what is reported are those of a reference or those of a binding. -/
theorem Walker.Takes.ends {α : Type} {w : Walker α} {x : α} {c d : Char} {s : Text}
    (h : w.Takes x (c :: s ++ [d])) :
    ((∃ body, w.ofReference (.ofBody body) = some x) ∧ c = '#' ∧ d = '#') ∨
      (∃ b, w.ofBinding b = some x) ∧ c = '[' ∧ d = ']' := by
  obtain ⟨body, hx, heq⟩ | ⟨b, hx, heq⟩ := h
  · obtain ⟨rfl, htail⟩ := List.cons.inj heq
    exact .inl ⟨⟨body, hx⟩, rfl, (List.cons.inj (List.append_inj' htail rfl).2).1⟩
  · obtain ⟨rfl, htail⟩ := List.cons.inj heq
    exact .inr ⟨⟨b, hx⟩, rfl, (List.cons.inj (List.append_inj' htail rfl).2).1⟩

/-- A rule has an opening bracket for each binding that the walk reports. -/
theorem length_bindingsIn_le (rule : Text) : (bindingsIn rule).length ≤ rule.count '[' := by
  have h : 1 * (bindingsIn rule).length ≤ rule.count '[' := by
    refine (gives_bindingsIn.holds rule).length_le 1 (List.count '[')
      (fun s t => List.count_append) fun b c s d hb => ?_
    obtain ⟨⟨body, hnone⟩, -⟩ | ⟨-, rfl, rfl⟩ := hb.ends
    · cases hnone
    · decide
  omega

/-- A rule has an opening bracket or two hashes for each reference that the walk reports. -/
theorem length_referencesIn_le (rule : Text) :
    (referencesIn rule).length ≤ rule.count '[' + rule.count '#' / 2 := by
  have h : 2 * (referencesIn rule).length ≤ 2 * rule.count '[' + rule.count '#' := by
    refine (gives_referencesIn.holds rule).length_le 2 (fun t => 2 * t.count '[' + t.count '#')
      (fun s t => ?_) fun r c s d hr => ?_
    · simp only [List.count_append]
      omega
    · obtain ⟨-, rfl, rfl⟩ | ⟨-, rfl, rfl⟩ := hr.ends <;> decide
  omega

/-! ## Both walks -/

/-- A binding is written at the front of a text. -/
def Binding.FoundAt (b : Binding) (rest : Text) : Prop := b.raw <+: rest

/-- A reference is written at the front of a text, or a binding is that asks for it. -/
def Reference.FoundAt (r : Reference) (rest : Text) : Prop :=
  r.raw <+: rest ∨ ∃ b : Binding, b.rule = none ∧ b.asReference = r ∧ b.FoundAt rest

/-- The bindings that the walk reports are written at places of their own. -/
theorem bindingsIn_atOwnPlaces (rule : Text) :
    AtOwnPlaces Binding.FoundAt rule (bindingsIn rule) := by
  refine (gives_bindingsIn.holds rule).atOwnPlaces.imp ?_
  rintro b rest ⟨piece, ⟨body, hnone, -⟩ | ⟨b', hb, rfl⟩, hfront⟩
  · cases hnone
  · cases hb
    exact hfront

/-- The references that the walk reports are written, or asked for, at places of their own. -/
theorem referencesIn_atOwnPlaces (rule : Text) :
    AtOwnPlaces Reference.FoundAt rule (referencesIn rule) := by
  refine (gives_referencesIn.holds rule).atOwnPlaces.imp ?_
  rintro r rest ⟨piece, ⟨body, hr, rfl⟩ | ⟨b, hb, rfl⟩, hfront⟩
  · cases hr
    exact .inl hfront
  · obtain ⟨hbare, hr⟩ := Option.ite_none_right_eq_some.1 hb
    exact .inr ⟨b, hbare, Option.some.inj hr, hfront⟩

/-- Of any rule both walks report no construct twice, and they end. A rule that they go down into is
shorter than the rule around it, and they answer in full when they may go down as many levels as the
rule has opening brackets, and one more. Each construct that they report is found at a place of its
own, where it is written or, if a binding asks for it, where the binding is. So the bindings, which
are written in the rule, are no more than its opening brackets, and the references no more than its
opening brackets and half of its hashes. -/
theorem walks_report_once (rule : Text) :
    (∀ node ∈ parse rule, ∀ b ∈ node.bindings, ∀ inner, b.rule = some inner →
      inner.length < rule.length) ∧
    (∀ levels, rule.count '[' < levels →
      bindingWalker.within levels rule = some (bindingsIn rule) ∧
      referenceWalker.within levels rule = some (referencesIn rule)) ∧
    (AtOwnPlaces Binding.FoundAt rule (bindingsIn rule) ∧
      (∀ b ∈ bindingsIn rule, b.raw <:+: rule) ∧
      (bindingsIn rule).length ≤ rule.count '[') ∧
    AtOwnPlaces Reference.FoundAt rule (referencesIn rule) ∧
      (referencesIn rule).length ≤ rule.count '[' + rule.count '#' / 2 := by
  refine ⟨?_, ?_, ⟨?_, ?_, ?_⟩, ?_, ?_⟩
  · intro node hn b hb inner hr
    exact length_rule_lt hn hb hr
  · intro levels hlevels
    exact ⟨gives_bindingsIn.within_eq_some hlevels, gives_referencesIn.within_eq_some hlevels⟩
  · exact bindingsIn_atOwnPlaces rule
  · exact fun b hb => raw_isInfix_of_mem_bindingsIn hb
  · exact length_bindingsIn_le rule
  · exact referencesIn_atOwnPlaces rule
  · exact length_referencesIn_le rule

/-- Both bounds are reached, and no level can be spared. -/
example :
    (bindingsIn "[a:[b:[c:d]]]".toList).length = 3 ∧ (referencesIn "#[a]b#".toList).length = 2 ∧
    bindingWalker.within 3 "[a:[b:[c:d]]]".toList = none := by
  decide +kernel

end TextGrammar
