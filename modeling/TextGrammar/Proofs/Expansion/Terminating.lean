import TextGrammar.Proofs.Expansion.Judgment
import TextGrammar.Proofs.Lint.Finishing

/-!
# Symbols that can finish do so within a limit

For the symbols that can finish there is one choice of candidates that leads to symbols of earlier
rounds only. With this choice every level of an expansion either goes to a candidate of an earlier
round or stays in its rule and goes to a shorter text: the rule of a binding is shorter than the
rule it stands in, and what variables, unknown symbols and modifiers give is expanded already. So
the rounds, each counted with the length that a candidate can have, bound the depth.

## Main definitions

* `RuleTable.FitsIn` — a number of levels is enough for a rule.
* `Run.Settles` — the rules are those of the table and the selector makes the choice.

## Main results

* `ends_flatten` — a rule for which the levels are enough expands to a text.
* `exists_choice_of_not_reports` — the choice and the limit for a symbol that is not reported.
-/

namespace TextGrammar

variable {σ : Type}

namespace RuleTable

/-- The length of all candidates together. -/
def writtenLength (table : RuleTable) : Nat := table.values.flatten.flatten.length

/-- So many levels are enough for a rule: it is expanded already, or it refers to symbols of some
round only and the levels cover its length and, for each round, that of a candidate. -/
def FitsIn (table : RuleTable) (levels : Nat) (rule : Text) : Prop :=
  Plain rule ∨ WellFormedRule rule ∧ ∃ rounds,
    (∀ x ∈ symbolsOf table rule, x ∈ table.finishingWithin rounds) ∧
    rounds * table.writtenLength + rule.length ≤ levels

end RuleTable

/-- Bound values are plain, the rules are those of the table, the limit is not passed, and the
selector makes the choice. -/
structure Run.Settles (table : RuleTable) (choice : Text → Text) (pick : Pick σ) (run : Run σ) :
    Prop where
  bound : ∀ value ∈ run.bound.values, Plain value
  rules : run.rules = table
  truncated : run.truncated = false
  selector : pick.Makes table choice run.selector

section Settles

variable {table : RuleTable} {choice : Text → Text} {s : Setting σ} {rule : Text} {r : Reference}

theorem length_le_writtenLength {candidates : List Text} (hc : candidates ∈ table.values)
    (hrule : rule ∈ candidates) : rule.length ≤ table.writtenLength := by
  have hmem : rule ∈ table.values.flatten := List.mem_flatten.2 ⟨candidates, hc, hrule⟩
  exact (List.sublist_flatten_of_mem hmem).length_le

/-- When bindings are not kept, every step of an expansion leaves the rules as they are. -/
theorem judgment_settles (hk : s.keepsBindings = false) (hm : Registry.KeepsPlain s.modifiers) :
    Judgment s (fun P x => Ends (Run.Settles table choice s.pick) P x) (fun _ => True) where
  answer := Ends.answer
  sequence := Ends.sequence
  write _ hv := Ends.change fun _ h => by
    rw [hk]
    exact ⟨Run.plain_values_bind h.bound hv false, h.rules, h.truncated, h.selector⟩
  note _ _ := Ends.change fun _ h => ⟨h.bound, h.rules, h.truncated, h.selector⟩
  modifiers := hm

variable (htable : RuleTable.WellFormedRules table) (hchoice : table.IsChoice choice)
  (hdescends : table.Descends choice)

include htable hchoice hdescends

/-- A symbol that finishes in some rounds stands for a rule of fewer rounds. -/
theorem ends_resolve {symbol : Text} (hs : Plain symbol) {rounds levels : Nat}
    (hrounds : table.contains symbol = true → Text.lower symbol ∈ table.finishingWithin rounds)
    (hlevels : rounds * table.writtenLength ≤ levels) :
    Ends (Run.Settles table choice s.pick) (table.FitsIn levels) (resolve s symbol) := by
  refine Ends.lookUp (fun run value h hb => ?_) (fun run candidates h hr => ?_)
    fun _ _ _ => .inl hs
  · exact .inl (h.bound value (NameMap.mem_values_of_get? hb))
  · refine ⟨?_, h.bound, h.rules, h.truncated, h.selector.next symbol candidates⟩
    have hget : table.get? symbol = some candidates := h.rules ▸ hr
    have hanswer : (run.choose s.pick symbol candidates).1
        = if candidates = [] then [] else choice (Text.lower symbol) := h.selector.answer hget
    rw [hanswer]
    by_cases hc : candidates = []
    · rw [if_pos hc]
      exact .inl plain_nil
    · rw [if_neg hc]
      have hin : table.contains symbol = true := NameMap.contains_of_get? hget
      have hmem := hchoice hget hc
      have hvalues := NameMap.mem_values_of_get? hget
      obtain ⟨fewer, hfewer, hall⟩ := hdescends hget hc rounds (hrounds hin)
      refine .inr ⟨htable candidates hvalues _ hmem, fewer, hall, ?_⟩
      have hlength := length_le_writtenLength hvalues hmem
      have hless := Nat.mul_le_mul_right table.writtenLength (Nat.succ_le_of_lt hfewer)
      rw [Nat.succ_mul] at hless
      omega

/-- A level is enough to go from a rule to what its references ask for. -/
theorem WellFormedRule.fits_of_rounds {levels : Nat} (hrule : WellFormedRule rule) {rounds : Nat}
    (hrounds : ∀ x ∈ symbolsOf table rule, x ∈ table.finishingWithin rounds)
    (hlevels : rounds * table.writtenLength + rule.length ≤ levels + 1)
    (hr : .reference r ∈ parse rule) :
    r.Fits s (fun P x => Ends (Run.Settles table choice s.pick) P x) (fun _ => True)
      (table.FitsIn levels) where
  asked := by
    intro b hb
    refine .inr ⟨hrule.asked hr hb, rounds, fun x hx => ?_, ?_⟩
    · exact hrounds x (hrule.mem_symbolsOf_iff.2 ⟨r, hr, .inr ⟨b, hb, hx⟩⟩)
    · have hshorter := length_asked_lt hr hb
      omega
  names := fun _ _ _ => trivial
  lookUp := by
    have hne : rule ≠ [] := by
      rintro rfl
      rw [parse_nil] at hr
      cases hr
    have hlength := List.length_pos_iff.2 hne
    have hcandidate : rounds * table.writtenLength ≤ levels := by omega
    refine ends_resolve htable hchoice hdescends (plain_symbol_of_mem_parse hr) (fun hin => ?_)
      hcandidate
    exact hrounds _ (hrule.mem_symbolsOf_iff.2 ⟨r, hr, .inl ⟨hin, rfl⟩⟩)

/-- With the choice made, a rule for which the levels are enough expands to a plain text. -/
theorem ends_flatten (hk : s.keepsBindings = false) (hm : Registry.KeepsPlain s.modifiers)
    (levels : Nat) : ∀ ⦃rule⦄, table.FitsIn levels rule →
      Ends (Run.Settles table choice s.pick) Plain (flatten s levels rule) := by
  have hplain : ∀ levels t, Plain t →
      Ends (Run.Settles table choice s.pick) Plain (flatten s levels t) := by
    intro levels t ht
    rw [flatten_of_not_hasSyntax s levels (hasSyntax_eq_false_iff.2 ht)]
    exact Ends.answer ht
  induction levels with
  | zero =>
    rintro rule (hp | ⟨-, rounds, -, hlevels⟩)
    · exact hplain 0 rule hp
    · obtain rfl : rule = [] := List.length_eq_zero_iff.1 (by omega)
      exact hplain 0 [] plain_nil
  | succ levels ih =>
    rintro rule (hp | ⟨hrule, rounds, hrounds, hlevels⟩)
    · exact hplain (levels + 1) rule hp
    · cases hsyntax : hasSyntax rule with
      | false => exact hplain (levels + 1) rule (hasSyntax_eq_false_iff.1 hsyntax)
      | true =>
        intro run hrun
        rw [flatten_succ_of_not_truncated s levels hsyntax hrun.truncated]
        have hnodes : ∀ node ∈ parse rule, Ends (Run.Settles table choice s.pick) Plain
            (expandNode s (flatten s levels) node) := fun node hn =>
          (judgment_settles hk hm).expandNode ih (fun _ => .inl) hrule (fun _ hr =>
            hrule.fits_of_rounds htable hchoice hdescends hrounds hlevels hr) hn
        exact (judgment_settles hk hm).expandNodes hnodes hrun

end Settles

/-- For a symbol that is not reported never to finish there are a choice of candidates and a depth
limit with which its expansion ends with a text, whatever the modifiers do; passing the limit would
be an error. No two entries of the table spell one name, as in every map that is written entry by
entry. -/
theorem exists_choice_of_not_reports (table : RuleTable) (hmap : table.WellFormed)
    (htable : RuleTable.WellFormedRules table) (knows : Option (Text → Bool))
    (origin file : Option Text) {symbol : Text} (hsymbol : SymbolName symbol)
    (hin : table.contains symbol = true) (hreports : ¬ Finding.Reports
      (lint table knows origin file) LintFault.nonTerminating.code symbol) :
    ∃ (choice : Text → Text) (limit : Int), table.IsChoice choice ∧
      ∀ {σ : Type} (pick : Pick σ) (selector : σ) (modifiers : Registry) (maxDepth : Int),
        pick.Makes table choice selector → Registry.KeepsPlain modifiers → limit ≤ maxDepth →
        let g : Grammar :=
          { rules := table, modifiers, keepsBindings := false, maxDepth, strict := true }
        ∃ text, (g.flatten pick selector ('#' :: symbol ++ ['#'])).result = .ok text := by
  obtain ⟨choice, hchoice, hdescends⟩ := RuleTable.exists_choice hmap
  obtain ⟨rounds, hrounds⟩ : ∃ rounds, Text.lower symbol ∈ table.finishingWithin rounds := by
    rw [reports_nonTerminating_iff] at hreports
    exact ⟨_, Classical.byContradiction fun hn => hreports ⟨hin, hn⟩⟩
  refine ⟨choice, (rounds * table.writtenLength + symbol.length + 1 : Nat), hchoice, ?_⟩
  intro σ pick selector modifiers maxDepth hpick hm hlimit g
  have hfits : table.FitsIn (g.setting pick).levels ('#' :: symbol ++ ['#']) := by
    refine .inr ⟨hsymbol.wellFormedRule_asReference (b := ⟨symbol, none⟩), rounds, ?_, ?_⟩
    · rw [hsymbol.symbolsOf_eq hin]
      exact fun x hx => List.mem_singleton.1 hx ▸ hrounds
    · have hlevels : (g.setting pick).levels = (maxDepth + 1).toNat := rfl
      simp only [hlevels, List.length_append, List.length_cons, List.length_nil]
      omega
  have hstart : (g.start selector).Settles table choice pick :=
    ⟨fun _ hv => (List.not_mem_nil hv).elim, rfl, rfl, hpick⟩
  obtain ⟨text, last, hx, -, -⟩ := ends_flatten (s := g.setting pick) htable hchoice hdescends
    rfl hm _ hfits hstart
  refine ⟨text, ?_⟩
  rw [Grammar.flatten_of_ok hx]
  rfl

/-- A tree whose first candidate never stops to branch; its leaves bind a colour, and their buds
have no candidates. -/
def branchingTree : RuleTable :=
  .ofList [("tree".toList, ["(#tree# #tree#)".toList, "#[colour:#hue#]leaf.loud#".toList]),
    ("leaf".toList, ["#colour# leaf#bud#".toList]), ("hue".toList, ["#tree# green".toList,
      "red".toList]), ("bud".toList, [])]

/-- With a choice of candidates and levels enough the tree stops to branch. -/
theorem branchingTree_finishes :
    (branchingTree.WellFormed ∧ RuleTable.WellFormedRules branchingTree ∧
      SymbolName "Tree".toList ∧ branchingTree.contains "Tree".toList = true ∧
      ¬ Finding.Reports (lint branchingTree none none none) LintFault.nonTerminating.code
        "Tree".toList) ∧
    ∃ (choice : Text → Text) (limit : Int), branchingTree.IsChoice choice ∧
      ∀ maxDepth, limit ≤ maxDepth →
        let g : Grammar :=
          { rules := branchingTree, modifiers := .loud, keepsBindings := false, maxDepth,
            strict := true }
        ∃ text, (g.flatten (.ofChoice choice) () "#Tree#".toList).result = .ok text := by
  have hmap : branchingTree.WellFormed := NameMap.wellFormed_ofList _
  have htable : RuleTable.WellFormedRules branchingTree := by
    unfold RuleTable.WellFormedRules
    decide +kernel
  have hsymbol : SymbolName "Tree".toList := by decide +kernel
  have hin : branchingTree.contains "Tree".toList = true := by decide +kernel
  have hreports : ¬ Finding.Reports (lint branchingTree none none none)
      LintFault.nonTerminating.code "Tree".toList := by
    rw [reports_nonTerminating_iff]
    decide +kernel
  have hrule : '#' :: "Tree".toList ++ ['#'] = "#Tree#".toList := by decide +kernel
  obtain ⟨choice, limit, hchoice, hends⟩ :=
    exists_choice_of_not_reports branchingTree hmap htable none none none hsymbol hin hreports
  rw [hrule] at hends
  refine ⟨⟨hmap, htable, hsymbol, hin, hreports⟩, choice, limit, hchoice, fun maxDepth hlimit => ?_⟩
  exact hends (.ofChoice choice) () .loud maxDepth (makes_ofChoice _ choice) keepsPlain_loud hlimit

end TextGrammar
