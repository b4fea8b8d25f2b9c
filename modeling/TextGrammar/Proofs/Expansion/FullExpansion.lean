import TextGrammar.Proofs.Expansion.Judgment
import TextGrammar.Proofs.Expansion.Strictness
import TextGrammar.Select.MersenneTwister

/-!
# Well-formed grammars are expanded in full

Text reaches the outcome of an expansion from five sides: the literal text of rules, candidates,
bound values, symbols that nothing is known of, and modifiers. When rules and candidates are well
formed and modifiers add no delimiter, none of them leaves a delimiter behind, so what an expansion
within the limit ends with is expanded in full.

## Main definitions

* `Run.Clean` — bound values are plain and candidates well formed; every step keeps it.
* `ExpandsCleanly` — well-formed rules are expanded in full, and the run stays clean.
* `Grammar.flattenEach` — expands rules one after the other with one grammar and one selector.

## Main results

* `keeps_flatten` — a well-formed rule expands to a plain text and leaves a clean run.
* `Grammar.flattenEach_plain` — so do all rules of a sequence of expansions within the limit.
-/

namespace TextGrammar

variable {σ : Type}

/-! ## Clean runs -/

/-- Bound values are plain, those bound before too, candidates are well formed, and the selector
answers what is offered. -/
structure Run.Clean (pick : Pick σ) (run : Run σ) : Prop where
  bound : ∀ value ∈ run.bound.values, Plain value
  rules : RuleTable.WellFormedRules run.rules
  trace : ∀ name value, .bound name value ∈ run.trace → Plain value
  selector : pick.Offers run.selector

theorem Run.Clean.record {pick : Pick σ} {run : Run σ} (h : run.Clean pick)
    (name reference : Text) : (run.record (.unknownModifier name reference)).Clean pick where
  bound := h.bound
  rules := h.rules
  trace := by
    intro n v hv
    rcases List.mem_cons.1 hv with hv | hv
    · cases hv
    · exact h.trace n v hv
  selector := h.selector

theorem Run.Clean.bind {pick : Pick σ} {run : Run σ} (h : run.Clean pick) (keeps : Bool)
    (name : Text) {value : Text} (hv : Plain value) : (run.bind keeps name value).Clean pick where
  bound := Run.plain_values_bind h.bound hv keeps
  rules := Run.candidates_bind h.rules (wellFormedRule_of_plain hv) keeps
  trace := by
    intro n v hmem
    rcases List.mem_cons.1 hmem with heq | hmem
    · cases heq
      exact hv
    · exact h.trace n v hmem
  selector := h.selector

theorem Run.Clean.choose {pick : Pick σ} {run : Run σ} (h : run.Clean pick) (symbol : Text)
    (candidates : List Text) : (run.choose pick symbol candidates).2.Clean pick where
  bound := h.bound
  rules := h.rules
  trace := by
    intro n v hv
    rcases List.mem_cons.1 hv with hv | hv
    · cases hv
    · exact h.trace n v hv
  selector := h.selector.next symbol candidates

/-! ## One step -/

/-- From a clean run `inner` expands well-formed rules to plain texts and leaves a clean run. -/
def ExpandsCleanly (s : Setting σ) (inner : Text → Expansion σ Text) : Prop :=
  ∀ ⦃rule⦄, WellFormedRule rule → Keeps (Run.Clean s.pick) Plain (inner rule)

variable {s : Setting σ}

/-- A symbol stands for a well-formed rule: a bound value and an unknown symbol are plain, and a
candidate is well formed. -/
theorem keeps_resolve {symbol : Text} (hs : Plain symbol) :
    Keeps (Run.Clean s.pick) WellFormedRule (resolve s symbol) := by
  refine (Ends.lookUp (fun run value hrun hb => ?_) (fun run candidates hrun hr => ?_)
    fun _ _ _ => wellFormedRule_of_plain hs).keeps
  · exact wellFormedRule_of_plain (hrun.bound value (NameMap.mem_values_of_get? hb))
  · exact ⟨Run.choose_of_offers hrun.rules (wellFormedRule_of_plain plain_nil) hrun.selector hr,
      hrun.choose symbol candidates⟩

/-- Clean runs are kept by everything that the parts of a rule are expanded with. -/
theorem judgment_clean (hm : Registry.KeepsPlain s.modifiers) :
    Judgment s (fun P x => Keeps (Run.Clean s.pick) P x) (fun _ => True) where
  answer := Keeps.answer
  sequence := Keeps.sequence
  write {name _} _ hv := Keeps.change fun _ h => h.bind s.keepsBindings name hv
  note name reference := Keeps.change fun _ h => h.record name reference
  modifiers := hm

/-- Every binding of a well-formed rule asks for a well-formed rule, and so does every symbol. -/
theorem WellFormedRule.fits {rule : Text} (h : WellFormedRule rule) {r : Reference}
    (hr : .reference r ∈ parse rule) :
    r.Fits s (fun P x => Keeps (Run.Clean s.pick) P x) (fun _ => True) WellFormedRule where
  asked := fun _ hb => h.asked hr hb
  names := fun _ _ _ => trivial
  lookUp := keeps_resolve (plain_symbol_of_mem_parse hr)

/-! ## Whole expansions -/

/-- A strict expansion of a well-formed rule ends with a plain text and a clean run, if it ends with
a text at all. -/
theorem keeps_flatten (hs : s.strict = true) (hm : Registry.KeepsPlain s.modifiers)
    (levels : Nat) : ExpandsCleanly s (flatten s levels) :=
  (judgment_clean hm).keeps_flatten hs (fun _ => wellFormedRule_of_plain) (fun _ h => h)
    (fun _ h _ hr => h.fits hr) levels

namespace Grammar

/-- The outcomes of expanding rules one after the other with one grammar and one selector. -/
def flattenEach (g : Grammar) (pick : Pick σ) (selector : σ) : List Text → List (Outcome σ)
  | [] => []
  | rule :: rules =>
    let first := g.flatten pick selector rule
    first :: first.grammar.flattenEach pick first.selector rules

/-- A plain text expands to itself, under every grammar, and nothing happens. -/
theorem flatten_of_plain {text : Text} (h : Plain text) (g : Grammar) (pick : Pick σ)
    (selector : σ) : g.flatten pick selector text = ⟨.ok text, g, selector, []⟩ := by
  have hx : flattenTop (g.setting pick) text (g.start selector) = .ok text (g.start selector) := by
    rw [flattenTop, flatten_of_not_hasSyntax _ _ (hasSyntax_eq_false_iff.2 h)]
    rfl
  rw [flatten_of_ok hx]
  rfl

variable {g : Grammar} {pick : Pick σ} {selector : σ} {rule text : Text} {run : Run σ}

/-- A well-formed rule that expands within the limit ends with a plain text and a clean run. -/
theorem Finishes.clean (h : g.Finishes pick selector rule text run) (hrule : WellFormedRule rule)
    (htable : RuleTable.WellFormedRules g.rules) (hm : Registry.KeepsPlain g.modifiers)
    (hpick : pick.Offers selector) : Plain text ∧ run.Clean pick := by
  have hstart : (g.start selector).Clean pick :=
    ⟨fun _ hv => (List.not_mem_nil hv).elim, htable,
      fun _ _ hv => (List.not_mem_nil hv).elim, hpick⟩
  exact keeps_flatten (s := { g.setting pick with strict := true }) rfl hm _ hrule hstart h

/-- Well-formed rules are expanded in full by a grammar with well-formed candidates and modifiers
that add no delimiter, as long as no expansion passes the limit: each ends with a plain text, which
every grammar expands to itself, every value it binds is plain, and the candidates stay well
formed. -/
theorem flattenEach_plain (g : Grammar) (pick : Pick σ) (selector : σ) (rules : List Text)
    (hrules : ∀ rule ∈ rules, WellFormedRule rule) (htable : RuleTable.WellFormedRules g.rules)
    (hm : Registry.KeepsPlain g.modifiers) (hpick : pick.Offers selector)
    (hlimit : ∀ o ∈ g.flattenEach pick selector rules, ¬ o.PassesLimit) :
    ∀ o ∈ g.flattenEach pick selector rules,
      (∃ text, o.result = .ok text ∧ Plain text ∧
        ∀ (g' : Grammar) (selector' : σ), (g'.flatten pick selector' text).result = .ok text) ∧
      (∀ name value, .bound name value ∈ o.events → Plain value) ∧
      RuleTable.WellFormedRules o.grammar.rules := by
  induction rules generalizing g selector with
  | nil => intro o ho; cases ho
  | cons rule rules ih =>
    obtain ⟨text, run, hf⟩ := exists_finishes (hlimit _ List.mem_cons_self)
    obtain ⟨hplain, hclean⟩ := hf.clean (hrules rule List.mem_cons_self) htable hm hpick
    have hfirst : g.flatten pick selector rule = g.finished text run := hf.flatten_eq.1
    intro o ho
    rw [flattenEach] at ho hlimit
    rcases List.mem_cons.1 ho with rfl | ho
    · rw [hfirst]
      refine ⟨⟨text, rfl, hplain, fun g' selector' => ?_⟩, fun name value hv => ?_, hclean.rules⟩
      · rw [flatten_of_plain hplain]
      · exact hclean.trace name value (List.mem_reverse.1 hv)
    · rw [hfirst] at ho hlimit
      exact ih (g.finished text run).grammar run.selector
        (fun r hr => hrules r (List.mem_cons_of_mem rule hr)) hclean.rules hm hclean.selector
        (fun o' h => hlimit o' (List.mem_cons_of_mem _ h)) o ho

/-- A story whose hero has a loud name, and whose mood is bound while nothing of it is shown. -/
def heroStory : Grammar where
  rules := .ofList [("origin".toList, ["#[hero:#name.loud#]story#".toList]),
    ("story".toList, ["#hero# meets #name#; #[aside]hero# sleeps".toList]),
    ("aside".toList, ["#[mood:calm]mood#".toList]),
    ("name".toList, ["Anna".toList, "Bob".toList])]
  modifiers := .ofList [("loud".toList, .ofFunction "a loud voice".toList (· ++ ['!']))]
  keepsBindings := true

/-- The story, and then what is kept of it, are expanded in full. -/
theorem heroStory_plain :
    let pick := (Selector.pick : Pick (Selector MersenneTwister))
    let rules := ["#origin#".toList, "#hero# is #mood#".toList]
    let outcomes := heroStory.flattenEach pick (.sequential ∅) rules
    ((∀ rule ∈ rules, WellFormedRule rule) ∧ RuleTable.WellFormedRules heroStory.rules ∧
      Registry.KeepsPlain heroStory.modifiers ∧ Pick.Offers pick (.sequential ∅) ∧
      ∀ o ∈ outcomes, ¬ o.PassesLimit) ∧
    outcomes.map (·.result.toOption) = [some "Anna! meets Bob; Anna! sleeps".toList,
      some "Anna! is calm".toList] ∧
    ∀ o ∈ outcomes,
      (∃ text, o.result = .ok text ∧ Plain text ∧
        ∀ (g' : Grammar) selector', (g'.flatten pick selector' text).result = .ok text) ∧
      (∀ name value, .bound name value ∈ o.events → Plain value) ∧
      RuleTable.WellFormedRules o.grammar.rules := by
  intro pick rules outcomes
  have hrules : ∀ rule ∈ rules, WellFormedRule rule := by decide +kernel
  have htable : RuleTable.WellFormedRules heroStory.rules := by
    unfold RuleTable.WellFormedRules
    decide +kernel
  have hm : Registry.KeepsPlain heroStory.modifiers := by
    intro m hmem t ht
    obtain rfl : m = .ofFunction "a loud voice".toList (· ++ ['!']) := List.mem_singleton.1 hmem
    exact ht.append (by decide)
  have hlimit : ∀ o ∈ outcomes, ¬ o.PassesLimit := by decide +kernel
  have htexts : outcomes.map (·.result.toOption) = [some "Anna! meets Bob; Anna! sleeps".toList,
      some "Anna! is calm".toList] := by decide +kernel
  have hpick : Pick.Offers pick (.sequential ∅) := (chooses_sequential ∅).offers
  exact ⟨⟨hrules, htable, hm, hpick, hlimit⟩, htexts,
    flattenEach_plain heroStory pick (.sequential ∅) rules hrules htable hm hpick hlimit⟩

end Grammar

end TextGrammar
