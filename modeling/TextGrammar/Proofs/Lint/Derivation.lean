import TextGrammar.Proofs.Lint.Reachability

/-!
# Reaching symbols and finishing them

Which symbols a start leads to, and which can finish, is told here by derivations: a start leads to
a name through references in the candidates of symbols, and a symbol finishes when it has no
candidates, or one whose references to symbols finish. The sets of names that a lint works with
hold exactly the symbols of which this is so.

## Main definitions

* `RuleTable.RefersTo` — some candidate of a symbol holds a reference to a name.
* `RuleTable.Leads` — a chain of references leads from one name to another.
* `RuleTable.HasDerivation` — a symbol can finish.

## Main results

* `RuleTable.leads_iff` — the symbols that a start leads to.
* `RuleTable.hasDerivation_iff` — the symbols that can finish.
-/

namespace TextGrammar

namespace RuleTable

/-- Some candidate of a symbol holds a reference to a name, at any depth. -/
def RefersTo (table : RuleTable) (symbol name : Text) : Prop :=
  ∃ candidates, table.get? symbol = some candidates ∧
    ∃ rule ∈ candidates, ∃ r ∈ referencesIn rule, Text.lower r.symbol = Text.lower name

/-- A chain of references leads from the start to a name, in whatever spelling. -/
inductive Leads (table : RuleTable) (origin : Text) : Text → Prop
  /-- The start leads to itself. -/
  | here {name : Text} (hname : Text.lower name = Text.lower origin) : Leads table origin name
  /-- The start leads to what a symbol refers to that it leads to. -/
  | step {symbol name : Text} (hsymbol : Leads table origin symbol)
      (hname : table.RefersTo symbol name) : Leads table origin name

/-- A symbol has a finite derivation. -/
inductive HasDerivation (table : RuleTable) : Text → Prop
  /-- A symbol without candidates finishes at once. -/
  | empty {symbol : Text} (hget : table.get? symbol = some []) : HasDerivation table symbol
  /-- A symbol finishes with a candidate whose references to symbols finish. -/
  | candidate {symbol rule : Text} {candidates : List Text}
      (hget : table.get? symbol = some candidates) (hrule : rule ∈ candidates)
      (hrefs : ∀ r ∈ referencesIn rule, table.contains r.symbol = true →
        HasDerivation table r.symbol) : HasDerivation table symbol

variable {table : RuleTable} {origin symbol name other : Text}

/-- The name of an entry, in lower case, is one of the names of the graph. -/
theorem mem_names_of_contains (h : table.contains symbol = true) :
    Text.lower symbol ∈ (dependencies table).map (·.name) := by
  obtain ⟨e, he, hname⟩ := (NameMap.contains_iff table symbol).1 h
  rw [← hname]
  exact List.mem_map_of_mem (List.mem_map_of_mem he)

/-! ## Reaching symbols -/

/-- A symbol that the start leads to is reached. -/
theorem Leads.mem_reachableFrom (h : table.Leads origin name) (hin : table.contains name = true) :
    Text.lower name ∈ reachableFrom (dependencies table) (Text.lower origin) := by
  induction h with
  | here hname => exact (mem_reachableFrom_iff table _).2 ⟨mem_names_of_contains hin, .inl hname⟩
  | @step symbol name hsymbol hname ih =>
    obtain ⟨candidates, hget, rule, hrule, r, hr, hlower⟩ := hname
    have hsymbolIn : table.contains symbol = true := NameMap.contains_of_get? hget
    obtain ⟨e, he, hentry, rfl⟩ := NameMap.exists_mem_of_get? hget
    refine (mem_reachableFrom_iff table _).2 ⟨mem_names_of_contains hin, .inr ⟨e, he, ?_⟩⟩
    refine ⟨hentry ▸ ih hsymbolIn, rule, hrule, mem_symbolsOf_iff.2 ⟨r, hr, ?_, hlower⟩⟩
    rw [NameMap.contains_congr table hlower, hin]

/-- The symbols that are reached are those that the start leads to. -/
theorem leads_iff (hmap : table.WellFormed) (hin : table.contains name = true) :
    table.Leads origin name ↔
      Text.lower name ∈ reachableFrom (dependencies table) (Text.lower origin) := by
  refine ⟨fun h => h.mem_reachableFrom hin, fun h => ?_⟩
  refine forall_mem_leastSet (p := fun x => ∀ name, Text.lower name = x → table.Leads origin name)
    ?_ _ h name rfl
  intro known x _ hknown hrule name hname
  rw [Bool.or_eq_true, decide_eq_true_iff, isReferredTo_dependencies_iff] at hrule
  rcases hrule with hstart | ⟨e, he, hentry, rule, hrule, hx⟩
  · exact .here (hname.trans hstart)
  · obtain ⟨r, hr, -, hlower⟩ := mem_symbolsOf_iff.1 hx
    exact .step (hknown _ hentry e.1 rfl)
      ⟨e.2, hmap.get?_of_mem he, rule, hrule, r, hr, hlower.trans hname.symm⟩

/-! ## Finishing symbols -/

theorem HasDerivation.mem_finishing (h : table.HasDerivation symbol) :
    Text.lower symbol ∈ finishing (dependencies table) := by
  have hadd : ∀ {symbol candidates}, table.get? symbol = some candidates →
      (candidates = [] ∨ ∃ rule ∈ candidates,
        ∀ x ∈ symbolsOf table rule, x ∈ finishing (dependencies table)) →
      Text.lower symbol ∈ finishing (dependencies table) := by
    intro symbol candidates hget hcase
    have hin : table.contains symbol = true := NameMap.contains_of_get? hget
    obtain ⟨e, he, hentry, rfl⟩ := NameMap.exists_mem_of_get? hget
    refine (monotoneRule_finishesGiven _).mem_leastSet_iff.2 ⟨mem_names_of_contains hin, ?_⟩
    exact (finishesGiven_dependencies_iff table _ _).2 ⟨e, he, hentry, hcase⟩
  induction h with
  | empty hget => exact hadd hget (.inl rfl)
  | @candidate symbol rule candidates hget hrule _ ih =>
    refine hadd hget (.inr ⟨rule, hrule, fun x hx => ?_⟩)
    obtain ⟨r, hr, hin, rfl⟩ := mem_symbolsOf_iff.1 hx
    exact ih r hr hin

/-- The symbols that can finish are those with a finite derivation. -/
theorem hasDerivation_iff (hmap : table.WellFormed) :
    table.HasDerivation symbol ↔ Text.lower symbol ∈ finishing (dependencies table) := by
  refine ⟨HasDerivation.mem_finishing, fun h => ?_⟩
  refine forall_mem_leastSet (p := fun x => ∀ symbol, Text.lower symbol = x →
    table.HasDerivation symbol) ?_ _ h symbol rfl
  intro known x _ hknown hrule symbol hsymbol
  obtain ⟨e, he, hentry, hcase⟩ := (finishesGiven_dependencies_iff table known x).1 hrule
  have hget : table.get? symbol = some e.2 :=
    (NameMap.get?_congr table (hsymbol.trans hentry.symm)).trans (hmap.get?_of_mem he)
  rcases hcase with hnil | ⟨rule, hmem, hall⟩
  · exact .empty (hnil ▸ hget)
  · refine .candidate hget hmem fun r hr hin => hknown _ (hall _ ?_) r.symbol rfl
    exact mem_symbolsOf_iff.2 ⟨r, hr, hin, rfl⟩

/-! ## Tables with the same candidates -/

section Agreeing

variable {rules : RuleTable}

/-- What a start leads to is told by the candidates that names have. -/
theorem Leads.of_get?_eq (hget : ∀ name, rules.get? name = table.get? name)
    (h : table.Leads origin name) : rules.Leads origin name := by
  induction h with
  | here hname => exact .here hname
  | step _ hname ih =>
    obtain ⟨candidates, hsymbol, hrefers⟩ := hname
    exact .step ih ⟨candidates, (hget _).trans hsymbol, hrefers⟩

/-- What can finish is told by the candidates that names have. -/
theorem HasDerivation.of_get?_eq (hget : ∀ name, rules.get? name = table.get? name)
    (h : table.HasDerivation symbol) : rules.HasDerivation symbol := by
  induction h with
  | empty hsymbol => exact .empty ((hget _).trans hsymbol)
  | candidate hsymbol hrule _ ih =>
    refine .candidate ((hget _).trans hsymbol) hrule fun r hr hin => ih r hr ?_
    rwa [NameMap.contains_eq_isSome, hget, ← NameMap.contains_eq_isSome] at hin

end Agreeing

end RuleTable

end TextGrammar
