import TextGrammar.Proofs.Rule.Nested
import TextGrammar.Lint.Findings
import TextGrammar.Grammar
import TextGrammar.Select.MersenneTwister
import TextGrammar.Select.Selector

/-!
# What a binding without a rule asks for

A binding without a rule asks for the reference that names it whole. The walk over a rule takes the
name of such a binding for a symbol as it stands; an expansion writes it between hashes and reads
the result as a rule, where a full stop begins a modifier and brackets hold bindings. The two agree
on the names that a reference can be made of, and on no others.

## Main definitions

* `Reference.content` — what a reference asks to expand, apart from how it is written.

## Main results

* `Binding.isInfix_references` — what the walk sees of a binding is a stretch of what it sees.
* `length_symbol_add_two_le` — a symbol that the walk sees is shorter than the rule by two.
* `bareBinding_agrees_iff` — which bindings without a rule the walk sees as they are expanded.
-/

namespace TextGrammar

/-- What a reference asks to expand: its symbol, its modifiers and its bindings. -/
def Reference.content (r : Reference) : Text × List Text × List Binding :=
  (r.symbol, r.modifiers, r.bindings)

/-! ## Where the references of a binding stand -/

theorem isInfix_flatMap_of_mem {α β : Type} {f : α → List β} {x : α} {xs : List α} (h : x ∈ xs) :
    f x <:+: xs.flatMap f := by
  obtain ⟨before, after, rfl⟩ := List.append_of_mem h
  exact ⟨before.flatMap f, after.flatMap f, by simp⟩

/-- The references that a binding at any depth asks for are a stretch of those that the walk
yields. -/
theorem Binding.isInfix_references {rule : Text} {b : Binding} (h : b ∈ bindingsIn rule) :
    b.references <:+: referencesIn rule := by
  induction hl : rule.length using Nat.strongRecOn generalizing rule with
  | ind n ih =>
    rw [bindingsIn_eq] at h
    obtain ⟨node, hn, h⟩ := List.mem_flatMap.1 h
    obtain ⟨outer, ho, h⟩ := List.mem_flatMap.1 h
    have houter : outer.references <:+: referencesIn rule := by
      rw [referencesIn_eq]
      refine List.IsInfix.trans ?_ (isInfix_flatMap_of_mem hn)
      exact (isInfix_flatMap_of_mem ho).trans (List.suffix_append _ _).isInfix
    rcases List.mem_cons.1 h with rfl | h
    · exact houter
    · cases hr : outer.rule with
      | none =>
        rw [hr] at h
        cases h
      | some inner =>
        rw [hr] at h
        have hlt : inner.length < n := hl ▸ length_rule_lt hn ho hr
        have hinner : outer.references = referencesIn inner := by rw [Binding.references, hr]
        exact (hinner ▸ ih inner.length hlt h rfl).trans houter

/-! ## Symbols -/

/-- The path of a reference is no longer than its body. -/
theorem length_path_le (body : Text) : (pathAndBindings body).1.length ≤ body.length := by
  fun_induction pathAndBindings body with
  | case1 => simp
  | case2 t inner rest hc path bindings hp ih =>
    have hlt := length_lt_of_closeBinding hc
    rw [hp] at ih
    simp only [List.length_cons] at ih ⊢
    omega
  | case3 t hc path bindings hp ih => simpa [hp] using ih
  | case4 c t ho path bindings hp ih => simpa [hp] using ih

theorem length_first_part_le (mark : Char) (t : Text) :
    (Text.parts mark t).1.length ≤ t.length := by
  induction t with
  | nil => exact Nat.le_refl _
  | cons c t ih =>
    simp only [Text.parts]
    split
    · exact Nat.zero_le _
    · exact Nat.succ_le_succ ih

/-- Two characters of a rule at least, those around it, do not belong to a symbol that the walk
sees. -/
theorem length_symbol_add_two_le {rule : Text} {seen : Reference} (h : seen ∈ referencesIn rule) :
    seen.symbol.length + 2 ≤ rule.length := by
  induction hl : rule.length using Nat.strongRecOn generalizing rule with
  | ind n ih =>
    rw [referencesIn_eq] at h
    obtain ⟨node, hn, h⟩ := List.mem_flatMap.1 h
    have hraw := Node.length_raw_le_of_mem_parse hn
    rcases List.mem_append.1 h with h | h
    · cases node with
      | reference r =>
        obtain rfl : seen = r := List.mem_singleton.1 h
        obtain ⟨body, rest, -, -, rfl⟩ := exists_body_of_mem_parse hn
        have hsymbol : (Reference.ofBody body).symbol.length ≤ (pathAndBindings body).1.length :=
          length_first_part_le '.' _
        have hpath := length_path_le body
        simp only [Node.raw_reference, Reference.raw_ofBody, List.length_cons,
          List.length_append] at hraw
        omega
      | _ => cases h
    · obtain ⟨b, hb, h⟩ := List.mem_flatMap.1 h
      have hb' := Node.length_raw_le_of_mem_bindings hn hb
      cases hr : b.rule with
      | none =>
        rw [Binding.references, hr] at h
        obtain rfl : seen = b.asReference := List.mem_singleton.1 h
        simp only [Binding.raw, Binding.inner, hr, List.length_cons, List.length_append] at hb'
        show b.name.length + 2 ≤ n
        omega
      | some inner =>
        rw [Binding.references, hr] at h
        have hlt : inner.length < n := hl ▸ length_rule_lt hn hb hr
        have hinner := ih inner.length hlt h rfl
        omega

/-! ## Names between hashes -/

/-- A literal character leaves the walk as it is. -/
theorem referencesIn_hash_hash (t : Text) :
    referencesIn ('#' :: '#' :: t) = referencesIn ('#' :: t) := by
  rw [referencesIn_eq, referencesIn_eq, parse_hash_hash]
  cases parse ('#' :: t) with
  | nil => rfl
  | cons node nodes => cases node <;> rfl

/-- When the walk over a name between hashes sees one reference, and that to the name itself, the
name is one that a reference can be made of. -/
theorem symbolName_of_referencesIn {name : Text} {seen : Reference}
    (h : referencesIn ('#' :: name ++ ['#']) = [seen]) (hname : seen.symbol = name) :
    SymbolName name := by
  cases hc : closeReference 0 (name ++ ['#']) with
  | none =>
    rw [List.cons_append, referencesIn_eq, parse_open_hash hc] at h
    cases h
  | some p =>
    obtain ⟨body, rest⟩ := p
    by_cases hb : body = []
    · -- The first hash is literal, and what follows it is too short to name the whole.
      have ht : name ++ ['#'] = '#' :: rest := by
        rw [eq_of_closeReference hc, hb, List.nil_append]
      rw [List.cons_append, ht, referencesIn_hash_hash, ← ht] at h
      have hshort := length_symbol_add_two_le (h ▸ List.mem_singleton_self seen)
      rw [hname, List.length_append, List.length_singleton] at hshort
      omega
    · have hr : .reference (Reference.ofBody body) ∈ parse ('#' :: name ++ ['#']) := by
        rw [List.cons_append, parse_reference hc hb]
        exact List.mem_cons_self
      have hseen : Reference.ofBody body = seen := by
        have hmem : Reference.ofBody body ∈ referencesIn ('#' :: name ++ ['#']) := by
          rw [referencesIn_eq]
          exact List.mem_flatMap.2 ⟨_, hr, List.mem_append_left _ (List.mem_singleton_self _)⟩
        exact List.mem_singleton.1 (h ▸ hmem)
      obtain ⟨hplain, hdot⟩ := plain_names_of_mem_parse hr _ List.mem_cons_self
      rw [hseen, hname] at hplain hdot
      refine ⟨?_, hplain.1, hplain.2, hdot⟩
      rintro rfl
      rw [List.nil_append, closeReference_hash] at hc
      cases hc
      exact hb rfl

/-- Of every binding without a rule, at any depth of a rule, the walk yields the references that
expanding it comes to, with the same symbols, modifiers and bindings in the same order, when the
name is one that a reference can be made of: it is not empty and holds no hash, opening bracket or
full stop. For every other name it yields something else. -/
theorem bareBinding_agrees_iff {rule : Text} {b : Binding} (hb : b ∈ bindingsIn rule)
    (hbare : b.rule = none) :
    b.references <:+: referencesIn rule ∧
    (b.references.map Reference.content = (referencesIn b.asked).map Reference.content ↔
      SymbolName b.name) := by
  refine ⟨Binding.isInfix_references hb, ?_⟩
  have hwalk : b.references = [b.asReference] := by rw [Binding.references, hbare]
  rw [hwalk, Binding.asked_of_none hbare]
  constructor
  · intro h
    obtain ⟨seen, hseen, hcontent⟩ := List.map_eq_singleton_iff.1 h.symm
    exact symbolName_of_referencesIn hseen (congrArg Prod.fst hcontent)
  · intro h
    exact congrArg (List.map Reference.content) h.referencesIn_eq.symm

/-- Of the two bindings without a rule that introduce this hero the walk sees one as it is
expanded: the other asks for a modifier too. -/
theorem heroIntroduction_agrees :
    let rule := "#[mood][name.loud]hero#".toList
    let mood : Binding := ⟨"mood".toList, none⟩
    let name : Binding := ⟨"name.loud".toList, none⟩
    ((mood ∈ bindingsIn rule ∧ mood.rule = none) ∧ name ∈ bindingsIn rule ∧ name.rule = none) ∧
    mood.references.map Reference.content = (referencesIn mood.asked).map Reference.content ∧
    name.references.map Reference.content ≠ (referencesIn name.asked).map Reference.content := by
  intro rule mood name
  have hmood : mood ∈ bindingsIn rule := by decide +kernel
  have hname : name ∈ bindingsIn rule := by decide +kernel
  refine ⟨⟨⟨hmood, rfl⟩, hname, rfl⟩, ?_, fun h => ?_⟩
  · exact (bareBinding_agrees_iff hmood rfl).2.2 (by decide +kernel)
  · exact absurd ((bareBinding_agrees_iff hname rfl).2.1 h) (by decide +kernel)

/-- A hero whose name is read out loud before the hero comes in. -/
def loudHero : Grammar where
  rules := .ofList [("origin".toList, ["#[name.loud]hero#".toList]),
    ("name".toList, ["Anna".toList]), ("hero".toList, ["Zed".toList])]

/-- The walk takes a name with a full stop for a symbol, where an expansion reads a symbol and a
modifier: a symbol that the selector is asked for is found to be out of reach. -/
theorem loudHero_walked_whole :
    let b : Binding := ⟨"name.loud".toList, none⟩
    let o : Outcome (Selector MersenneTwister) :=
      loudHero.flatten Selector.pick .first "#origin#".toList
    b ∈ bindingsIn "#[name.loud]hero#".toList ∧
    b.references.map Reference.content = [("name.loud".toList, [], [])] ∧
    (referencesIn b.asked).map Reference.content = [("name".toList, ["loud".toList], [])] ∧
    LintFault.finding none "name".toList (.unreachableSymbol "origin".toList) ∈
      lint loudHero.rules none (some "origin".toList) none ∧
    .picked "name".toList ["Anna".toList] "Anna".toList ∈ o.events := by
  intro b o
  refine ⟨by decide +kernel, by decide +kernel, by decide +kernel, ?_, by decide +kernel⟩
  rw [lint, Finding.sort, List.mem_mergeSort]
  decide +kernel

end TextGrammar
