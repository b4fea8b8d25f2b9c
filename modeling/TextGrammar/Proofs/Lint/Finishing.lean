import TextGrammar.Proofs.Lint.LeastSet
import TextGrammar.Proofs.Rule.Nested
import TextGrammar.Lint.Findings

/-!
# Which symbols are found never to finish

A symbol of a table can finish when it has no candidates or a candidate that refers to symbols which
can finish only. The symbols that are reported never to finish are exactly the others: each of their
candidates refers to such a symbol again. For the symbols that can finish there is one choice of
candidates that always leads to symbols which finish in fewer rounds.

## Main definitions

* `Dependency.Finishes` — whether a symbol finishes when some names do.
* `Finding.Reports` — some finding with a code is about a symbol.
* `RuleTable.finishingWithin` — the symbols that finish in some rounds.
* `RuleTable.IsChoice` — a choice of one candidate for each symbol that has any.
* `RuleTable.Descends` — a choice that leads to symbols which finish in fewer rounds.

## Main results

* `WellFormedRule.mem_symbolsOf_iff` — what a rule refers to, level by level.
* `reports_nonTerminating_iff` — which symbols are reported never to finish.
* `exists_mem_symbolsOf_of_not_mem_finishing` — what never finishes leads to what never finishes.
* `RuleTable.exists_choice` — the choice of candidates that leads to fewer rounds.
-/

namespace TextGrammar

/-! ## What a rule refers to -/

/-- A rule refers to the symbols of the table that its references name, at whatever level. -/
theorem RuleTable.mem_symbolsOf_iff {table : RuleTable} {rule x : Text} :
    x ∈ symbolsOf table rule ↔
      ∃ r ∈ referencesIn rule, table.contains r.symbol = true ∧ Text.lower r.symbol = x := by
  simp only [symbolsOf, List.mem_map, List.mem_filter, and_assoc]

/-- A rule refers to a symbol of the table with a reference of its own or with one in what a binding
asks for. -/
theorem WellFormedRule.mem_symbolsOf_iff {table : RuleTable} {rule x : Text}
    (h : WellFormedRule rule) : x ∈ symbolsOf table rule ↔ ∃ r, .reference r ∈ parse rule ∧
      (table.contains r.symbol = true ∧ Text.lower r.symbol = x ∨
        ∃ b ∈ r.bindings, x ∈ symbolsOf table b.asked) := by
  simp only [RuleTable.mem_symbolsOf_iff]
  constructor
  · rintro ⟨seen, hseen, hsymbol⟩
    rcases h.mem_referencesIn_iff.1 hseen with hr | ⟨r, b, hr, hb, hinside⟩
    · exact ⟨seen, hr, .inl hsymbol⟩
    · exact ⟨r, hr, .inr ⟨b, hb, seen, hinside, hsymbol⟩⟩
  · rintro ⟨r, hr, hsymbol | ⟨b, hb, seen, hinside, hsymbol⟩⟩
    · exact ⟨r, h.mem_referencesIn_iff.2 (.inl hr), hsymbol⟩
    · exact ⟨seen, h.mem_referencesIn_iff.2 (.inr ⟨r, b, hr, hb, hinside⟩), hsymbol⟩

/-- The reference that names a symbol of the table whole refers to that symbol. -/
theorem SymbolName.symbolsOf_eq {table : RuleTable} {symbol : Text} (h : SymbolName symbol)
    (hin : table.contains symbol = true) :
    symbolsOf table ('#' :: symbol ++ ['#']) = [Text.lower symbol] := by
  rw [symbolsOf, h.referencesIn_eq]
  simp [hin]

/-! ## Rounds -/

/-- A symbol finishes, given that some names do, when one of its entries has no candidates or a
candidate that refers to these names only. -/
theorem finishesGiven_dependencies_iff (table : RuleTable) (names : List Text) (name : Text) :
    finishesGiven (dependencies table) names name = true ↔
      ∃ e ∈ table.entries, Text.lower e.1 = name ∧
        (e.2 = [] ∨ ∃ rule ∈ e.2, ∀ x ∈ symbolsOf table rule, x ∈ names) := by
  rw [finishesGiven, dependencies, List.any_map, List.any_eq_true]
  refine exists_congr fun e => and_congr_right fun _ => ?_
  rw [Function.comp_apply, Bool.and_eq_true, decide_eq_true_iff, Dependency.name]
  simp

/-- Some candidate of the symbol refers to given names only, or it has none. -/
def Dependency.Finishes (d : Dependency) (names : List Text) : Prop :=
  d.candidates = [] ∨ ∃ refs ∈ d.candidates, refs ⊆ names

theorem Dependency.Finishes.mono {d : Dependency} {few many : List Text} (h : d.Finishes few)
    (hsub : few ⊆ many) : d.Finishes many := by
  refine h.imp id ?_
  rintro ⟨refs, hrefs, hall⟩
  exact ⟨refs, hrefs, List.Subset.trans hall hsub⟩

theorem finishesGiven_iff (graph : List Dependency) (names : List Text) (name : Text) :
    finishesGiven graph names name = true ↔ ∃ d ∈ graph, d.name = name ∧ d.Finishes names := by
  simp [finishesGiven, Dependency.Finishes, List.subset_def]

theorem monotoneRule_finishesGiven (graph : List Dependency) :
    MonotoneRule (finishesGiven graph) := by
  intro few many hsub name h
  rw [finishesGiven_iff] at h ⊢
  obtain ⟨d, hd, hname, hfinishes⟩ := h
  exact ⟨d, hd, hname, hfinishes.mono hsub⟩

/-- A symbol that never finishes has candidates, and each of them refers to a symbol that never
finishes. -/
theorem exists_mem_symbolsOf_of_not_mem_finishing {table : RuleTable} {symbol : Text}
    {candidates : List Text} (hget : table.get? symbol = some candidates)
    (hn : Text.lower symbol ∉ finishing (dependencies table)) :
    candidates ≠ [] ∧
      ∀ rule ∈ candidates, ∃ x ∈ symbolsOf table rule, x ∉ finishing (dependencies table) := by
  obtain ⟨e, he, hname, rfl⟩ := NameMap.exists_mem_of_get? hget
  have hmem : Text.lower symbol ∈ (dependencies table).map (·.name) := by
    rw [← hname]
    exact List.mem_map_of_mem (List.mem_map_of_mem he)
  have hclosed : ¬ finishesGiven (dependencies table) (finishing (dependencies table))
      (Text.lower symbol) = true :=
    fun h => hn ((monotoneRule_finishesGiven _).mem_leastSet_iff.2 ⟨hmem, h⟩)
  rw [finishesGiven_dependencies_iff] at hclosed
  constructor
  · intro hnil
    exact hclosed ⟨e, he, hname, .inl hnil⟩
  · intro rule hrule
    refine Classical.byContradiction fun hnone => hclosed ⟨e, he, hname, .inr ⟨rule, hrule, ?_⟩⟩
    intro x hx
    exact Classical.byContradiction fun hxn => hnone ⟨x, hx, hxn⟩

/-! ## A choice of candidates -/

namespace RuleTable

/-- The symbols, in lower case, that finish in some rounds. -/
def finishingWithin (table : RuleTable) (rounds : Nat) : List Text :=
  leastSetWithin ((dependencies table).map (·.name)) (finishesGiven (dependencies table)) rounds

/-- The choice gives each symbol that has candidates one of them, whatever its spelling. -/
def IsChoice (table : RuleTable) (choice : Text → Text) : Prop :=
  ∀ ⦃symbol candidates⦄, table.get? symbol = some candidates → candidates ≠ [] →
    choice (Text.lower symbol) ∈ candidates

/-- The candidate that the choice gives a symbol which finishes refers to symbols of earlier rounds
only. -/
def Descends (table : RuleTable) (choice : Text → Text) : Prop :=
  ∀ ⦃symbol candidates⦄, table.get? symbol = some candidates → candidates ≠ [] →
    ∀ k, Text.lower symbol ∈ table.finishingWithin k →
      ∃ j < k, ∀ x ∈ symbolsOf table (choice (Text.lower symbol)), x ∈ table.finishingWithin j

variable {table : RuleTable}

/-- A symbol that finishes has a candidate that refers to symbols of earlier rounds only. -/
theorem exists_rule_of_mem_finishingWithin (hmap : table.WellFormed) {symbol : Text}
    {candidates : List Text} (hget : table.get? symbol = some candidates) (hne : candidates ≠ [])
    {rounds : Nat} (h : Text.lower symbol ∈ table.finishingWithin rounds) :
    ∃ rule ∈ candidates, ∃ first, (∀ x ∈ symbolsOf table rule, x ∈ table.finishingWithin first) ∧
      ∀ k, Text.lower symbol ∈ table.finishingWithin k → first < k := by
  obtain ⟨first, hrule, hfirst⟩ := exists_first_round h
  rw [finishesGiven_dependencies_iff] at hrule
  obtain ⟨e, he, hname, hcase⟩ := hrule
  -- The entry is the one that the symbol is looked up in.
  have hentry : table.get? symbol = some e.2 :=
    (NameMap.get?_congr table hname.symm).trans (hmap.get?_of_mem he)
  rw [hget] at hentry
  cases hentry
  obtain ⟨rule, hmem, hall⟩ := hcase.resolve_left hne
  exact ⟨rule, hmem, first, hall, hfirst⟩

/-- There is a choice of one candidate for each symbol that leads to earlier rounds. -/
theorem exists_choice (hmap : table.WellFormed) :
    ∃ choice : Text → Text, table.IsChoice choice ∧ table.Descends choice := by
  have hname : ∀ name, ∃ rule, ∀ symbol candidates, Text.lower symbol = name →
      table.get? symbol = some candidates → candidates ≠ [] → rule ∈ candidates ∧
        ∀ k, name ∈ table.finishingWithin k →
          ∃ j < k, ∀ x ∈ symbolsOf table rule, x ∈ table.finishingWithin j := by
    intro name
    by_cases hsome : ∃ symbol candidates, Text.lower symbol = name ∧
        table.get? symbol = some candidates ∧ candidates ≠ []
    · obtain ⟨symbol, candidates, rfl, hget, hne⟩ := hsome
      -- All spellings of the name have the same candidates.
      have hone : ∀ other others, Text.lower other = Text.lower symbol →
          table.get? other = some others → others = candidates := by
        intro other others hlower hother
        rw [NameMap.get?_congr table hlower, hget] at hother
        exact (Option.some.inj hother).symm
      by_cases hfin : ∃ k, Text.lower symbol ∈ table.finishingWithin k
      · obtain ⟨k, hk⟩ := hfin
        obtain ⟨rule, hmem, first, hall, hfirst⟩ :=
          exists_rule_of_mem_finishingWithin hmap hget hne hk
        refine ⟨rule, fun other others hlower hother _ => ⟨?_, fun k hk => ?_⟩⟩
        · rw [hone other others hlower hother]
          exact hmem
        · exact ⟨first, hfirst k hk, hall⟩
      · obtain ⟨rule, hmem⟩ := List.exists_mem_of_ne_nil candidates hne
        refine ⟨rule, fun other others hlower hother _ => ⟨?_, fun k hk => ?_⟩⟩
        · rw [hone other others hlower hother]
          exact hmem
        · exact absurd ⟨k, hk⟩ hfin
    · exact ⟨[], fun symbol candidates hlower hget hne =>
        absurd ⟨symbol, candidates, hlower, hget, hne⟩ hsome⟩
  choose choice hchoice using hname
  exact ⟨choice, fun symbol candidates hget hne => (hchoice _ symbol candidates rfl hget hne).1,
    fun symbol candidates hget hne => (hchoice _ symbol candidates rfl hget hne).2⟩

end RuleTable

/-! ## What is reported -/

/-- Some finding with the code is about the symbol, in whatever spelling. -/
def Finding.Reports (findings : List Finding) (code symbol : Text) : Prop :=
  ∃ f ∈ findings, f.code = code ∧
    ∃ path, f.path = some path ∧ Text.lower path = Text.lower symbol

/-- A fault that is found in the candidates of one symbol by themselves. -/
def LintFault.IsLocal : LintFault → Prop
  | emptyCandidates _ => True
  | unknownSymbol _ => True
  | unknownModifier .. => True
  | unreachableSymbol _ => False
  | nonTerminating => False

theorem LintFault.eq_nonTerminating_of_code {fault : LintFault}
    (h : fault.code = LintFault.nonTerminating.code) : fault = .nonTerminating := by
  cases fault with
  | nonTerminating => rfl
  | _ => exact absurd (String.toList_inj.1 h) (by decide)

theorem LintFault.exists_eq_unreachableSymbol_of_code {fault : LintFault} {origin : Text}
    (h : fault.code = (LintFault.unreachableSymbol origin).code) :
    ∃ start, fault = .unreachableSymbol start := by
  cases fault with
  | unreachableSymbol start => exact ⟨start, rfl⟩
  | _ => exact absurd (String.toList_inj.1 h) (by decide)

theorem isLocal_of_mem_referenceFaults {table : RuleTable} {bound : List Text}
    {knows : Option (Text → Bool)} {r : Reference} {fault : LintFault}
    (h : fault ∈ referenceFaults table bound knows r) : fault.IsLocal := by
  unfold referenceFaults at h
  rw [List.mem_append] at h
  rcases h with h | h
  · split at h
    · rw [List.mem_singleton.1 h]
      trivial
    · cases h
  · split at h
    · cases h
    · obtain ⟨m, -, rfl⟩ := List.mem_map.1 h
      trivial

/-- What is doubtful in the candidates of a symbol by themselves: there is none, or a reference of
one of them is at fault. -/
theorem cases_of_mem_symbolFindings {table : RuleTable} {bound : List Text}
    {knows : Option (Text → Bool)} {file : Option Text} {symbol : Text} {candidates : List Text}
    {f : Finding} (h : f ∈ symbolFindings table bound knows file symbol candidates) :
    candidates = [] ∧ f = LintFault.finding file symbol (.emptyCandidates symbol) ∨
      ∃ i rule, candidates[i]? = some rule ∧ ∃ r ∈ referencesIn rule,
        ∃ fault ∈ referenceFaults table bound knows r,
          f = LintFault.finding file (candidatePath symbol i) fault := by
  rw [symbolFindings, List.mem_append] at h
  rcases h with h | h
  · split at h
    · rename_i hnil
      exact .inl ⟨List.isEmpty_iff.1 hnil, List.mem_singleton.1 h⟩
    · cases h
  · obtain ⟨⟨rule, i⟩, hrule, h⟩ := List.mem_flatMap.1 h
    obtain ⟨r, hr, h⟩ := List.mem_flatMap.1 h
    obtain ⟨fault, hfault, rfl⟩ := List.mem_map.1 h
    exact .inr ⟨i, rule, List.mk_mem_zipIdx_iff_getElem?.1 hrule, r, hr, fault, hfault, rfl⟩

theorem exists_fault_of_mem_symbolFindings {table : RuleTable} {bound : List Text}
    {knows : Option (Text → Bool)} {file : Option Text} {symbol : Text} {candidates : List Text}
    {f : Finding} (h : f ∈ symbolFindings table bound knows file symbol candidates) :
    ∃ path fault, LintFault.IsLocal fault ∧ f = LintFault.finding file path fault := by
  rcases cases_of_mem_symbolFindings h with ⟨-, rfl⟩ | ⟨i, _, -, r, -, fault, hfault, rfl⟩
  · exact ⟨symbol, .emptyCandidates symbol, trivial, rfl⟩
  · exact ⟨_, fault, isLocal_of_mem_referenceFaults hfault, rfl⟩

/-- What is said of the symbols of a table that are not among some names, entry by entry. -/
theorem map_filter_dependencies_eq (table : RuleTable) (names : List Text) (say : Text → Finding) :
    ((dependencies table).filter fun d => !names.contains d.name).map (fun d => say d.symbol)
      = (table.entries.filter fun e => Text.lower e.1 ∉ names).map fun e => say e.1 := by
  rw [dependencies, List.filter_map, List.map_map]
  refine congrArg (List.map _) (List.filter_congr fun e _ => ?_)
  simp [Dependency.name]

theorem mem_map_filter_dependencies_iff (table : RuleTable) (names : List Text)
    (say : Text → Finding) {f : Finding} :
    f ∈ ((dependencies table).filter fun d => !names.contains d.name).map (fun d => say d.symbol) ↔
      ∃ e ∈ table.entries, Text.lower e.1 ∉ names ∧ f = say e.1 := by
  rw [map_filter_dependencies_eq]
  simp only [List.mem_map, List.mem_filter, decide_eq_true_iff, and_assoc]
  exact exists_congr fun e => and_congr_right fun _ => and_congr_right fun _ => eq_comm

theorem mem_unreachableFindings_iff {table : RuleTable} {file : Option Text} {origin : Text}
    {f : Finding} : f ∈ unreachableFindings table file origin ↔ table.contains origin = true ∧
      ∃ e ∈ table.entries,
        Text.lower e.1 ∉ reachableFrom (dependencies table) (Text.lower origin) ∧
        f = LintFault.finding file e.1 (.unreachableSymbol origin) := by
  rw [unreachableFindings]
  by_cases hin : table.contains origin = true
  · rw [if_pos hin, and_iff_right hin]
    exact mem_map_filter_dependencies_iff table
      (reachableFrom (dependencies table) (Text.lower origin))
      fun symbol => LintFault.finding file symbol (.unreachableSymbol origin)
  · rw [if_neg hin]
    exact iff_of_false List.not_mem_nil fun h => hin h.1

theorem mem_nonTerminatingFindings_iff {table : RuleTable} {file : Option Text} {f : Finding} :
    f ∈ nonTerminatingFindings table file ↔ ∃ e ∈ table.entries,
      Text.lower e.1 ∉ finishing (dependencies table) ∧
      f = LintFault.finding file e.1 .nonTerminating :=
  mem_map_filter_dependencies_iff table (finishing (dependencies table))
    fun symbol => LintFault.finding file symbol .nonTerminating

/-- A finding is about the candidates of a symbol by themselves, about a symbol that the start never
leads to, or about a symbol that never finishes. -/
theorem mem_lint_iff {table : RuleTable} {knows : Option (Text → Bool)}
    {origin file : Option Text} {f : Finding} : f ∈ lint table knows origin file ↔
      (∃ e ∈ table.entries, f ∈ symbolFindings table (boundNames table) knows file e.1 e.2) ∨
      (∃ start, origin = some start ∧ f ∈ unreachableFindings table file start) ∨
      f ∈ nonTerminatingFindings table file := by
  rw [lint, Finding.sort, List.mem_mergeSort, List.mem_append, List.mem_append, List.mem_flatMap,
    or_assoc]
  refine or_congr_right (or_congr_left ?_)
  cases origin <;> simp

/-- The symbols that are reported never to finish are the symbols of the table that cannot finish,
whatever else the lint looks for. -/
theorem reports_nonTerminating_iff (table : RuleTable) (knows : Option (Text → Bool))
    (origin file : Option Text) (symbol : Text) :
    Finding.Reports (lint table knows origin file) LintFault.nonTerminating.code symbol ↔
      table.contains symbol = true ∧ Text.lower symbol ∉ finishing (dependencies table) := by
  rw [NameMap.contains_iff]
  constructor
  · rintro ⟨f, hf, hcode, path, hpath, hlower⟩
    rcases mem_lint_iff.1 hf with ⟨e, -, he⟩ | ⟨start, -, he⟩ | he
    · obtain ⟨path', fault, hlocal, rfl⟩ := exists_fault_of_mem_symbolFindings he
      rw [LintFault.eq_nonTerminating_of_code hcode] at hlocal
      cases hlocal
    · obtain ⟨-, e, -, -, rfl⟩ := mem_unreachableFindings_iff.1 he
      have hfault : (LintFault.unreachableSymbol start).code = LintFault.nonTerminating.code := hcode
      cases LintFault.eq_nonTerminating_of_code hfault
    · obtain ⟨e, hentry, hn, rfl⟩ := mem_nonTerminatingFindings_iff.1 he
      cases hpath
      exact ⟨⟨e, hentry, hlower⟩, hlower ▸ hn⟩
  · rintro ⟨⟨e, he, hlower⟩, hn⟩
    refine ⟨LintFault.finding file e.1 .nonTerminating, ?_, rfl, e.1, rfl, hlower⟩
    exact mem_lint_iff.2 (.inr (.inr (mem_nonTerminatingFindings_iff.2 ⟨e, he, hlower ▸ hn, rfl⟩)))

end TextGrammar
