import TextGrammar.Proofs.Lint.Finishing

/-!
# Which symbols the start never leads to

The symbols that a start leads to form a region of the table: what a candidate of a symbol of the
region refers to lies in the region again. The symbols that are reported to be unreachable are
exactly those outside the region of the start, so a table without them agrees with the table on
every name that is seen from inside.

## Main definitions

* `Region table` — symbols that are not left by going on to what their candidates refer to.
* `Region.Sees` — a name that is looked up inside a region: no symbol, or one of the region.
* `Region.Encloses` — a well-formed rule that refers to symbols of the region only.
* `Region.reachable` — the symbols that a start leads to.
* `Finding.reported`, `RuleTable.without` — the symbols that are reported, and a table without them.

## Main results

* `Region.Encloses.within` — what the parts of an enclosed rule ask for lies in the region.
* `reports_unreachable_iff` — which symbols are reported to be unreachable.
* `Region.agree_without_reported` — a table without them agrees with the table inside the region.
-/

namespace TextGrammar

/-! ## Regions -/

/-- Symbols of a table that are not left by going on to what their candidates refer to. -/
structure Region (table : RuleTable) where
  names : List Text
  /-- What a candidate of a symbol refers to lies in the region. -/
  closed : ∀ ⦃e⦄, e ∈ table.entries → Text.lower e.1 ∈ names →
    ∀ rule ∈ e.2, ∀ x ∈ symbolsOf table rule, x ∈ names

namespace Region

variable {table : RuleTable} (region : Region table)

/-- The name is no symbol of the table, or one of the region. -/
def Sees (name : Text) : Prop := table.contains name = true → Text.lower name ∈ region.names

/-- The rule is well formed and refers to symbols of the region only. -/
def Encloses (rule : Text) : Prop :=
  WellFormedRule rule ∧ ∀ x ∈ symbolsOf table rule, x ∈ region.names

/-- A table that gives every name that the region sees the same candidates. -/
def Agree (rules other : RuleTable) : Prop :=
  ∀ name, region.Sees name → other.get? name = rules.get? name

variable {region}

theorem encloses_of_plain {t : Text} (h : Plain t) : region.Encloses t := by
  refine ⟨wellFormedRule_of_plain h, fun x hx => ?_⟩
  rw [symbolsOf, referencesIn_of_plain h] at hx
  cases hx

/-- The candidates of a symbol of the region are enclosed, when all candidates are well formed. -/
theorem encloses_of_get? (htable : ∀ candidates ∈ table.values, ∀ rule ∈ candidates,
    WellFormedRule rule) {symbol : Text} (hsees : region.Sees symbol) {candidates : List Text}
    (hget : table.get? symbol = some candidates) {rule : Text} (hrule : rule ∈ candidates) :
    region.Encloses rule := by
  have hin : table.contains symbol = true := NameMap.contains_of_get? hget
  obtain ⟨e, he, hname, rfl⟩ := NameMap.exists_mem_of_get? hget
  have hmem : Text.lower e.1 ∈ region.names := hname ▸ hsees hin
  exact ⟨htable e.2 (List.mem_map_of_mem he) rule hrule, region.closed he hmem rule hrule⟩

/-- The reference that names a symbol of the region whole is enclosed. -/
theorem encloses_hash_symbol {symbol : Text} (hsymbol : SymbolName symbol)
    (hin : table.contains symbol = true) (hmem : Text.lower symbol ∈ region.names) :
    region.Encloses ('#' :: symbol ++ ['#']) := by
  refine ⟨hsymbol.wellFormedRule_asReference (b := ⟨symbol, none⟩), fun x hx => ?_⟩
  rw [hsymbol.symbolsOf_eq hin] at hx
  exact List.mem_singleton.1 hx ▸ hmem

/-- Writing a name leaves tables in agreement. -/
theorem Agree.insert {rules other : RuleTable} (h : region.Agree rules other) (name : Text)
    (candidates : List Text) :
    region.Agree (rules.insert name candidates) (other.insert name candidates) := by
  intro seen hseen
  by_cases hname : Text.lower seen = Text.lower name
  · rw [NameMap.get?_insert_of_lower_eq _ _ hname, NameMap.get?_insert_of_lower_eq _ _ hname]
  · rw [NameMap.get?_insert_of_lower_ne _ _ hname, NameMap.get?_insert_of_lower_ne _ _ hname]
    exact h seen hseen

end Region

/-! ## Parts of enclosed rules -/

section Parts

variable {table : RuleTable}

/-- A reference whose symbol is plain and seen, and whose bindings ask for enclosed rules. -/
structure Reference.Within (region : Region table) (r : Reference) : Prop where
  plain : Plain r.symbol
  sees : region.Sees r.symbol
  asked : ∀ b ∈ r.bindings, region.Encloses b.asked

/-- A part of an enclosed rule: a plain text or a reference inside the region. -/
def Node.Within (region : Region table) : Node → Prop
  | .text value => Plain value
  | .binding _ => False
  | .reference r => r.Within region

/-- What the parts of an enclosed rule ask for lies in the region. -/
theorem Region.Encloses.within {region : Region table} {rule : Text} (h : region.Encloses rule)
    {node : Node} (hn : node ∈ parse rule) : node.Within region := by
  obtain ⟨hrule, hsymbols⟩ := h
  have hsound := hrule.isSound hn
  cases node with
  | text value =>
    show Plain value
    exact of_decide_eq_true hsound
  | binding b => exact absurd hsound Bool.false_ne_true
  | reference r =>
    refine ⟨plain_symbol_of_mem_parse hn, fun hin => ?_, fun b hb => ⟨hrule.asked hn hb, ?_⟩⟩
    · exact hsymbols _ (hrule.mem_symbolsOf_iff.2 ⟨r, hn, .inl ⟨hin, rfl⟩⟩)
    · exact fun x hx => hsymbols x (hrule.mem_symbolsOf_iff.2 ⟨r, hn, .inr ⟨b, hb, hx⟩⟩)

end Parts

/-! ## The symbols that a start leads to -/

/-- Some names refer to a name when a candidate of theirs does. -/
theorem isReferredTo_dependencies_iff (table : RuleTable) (names : List Text) (name : Text) :
    isReferredTo (dependencies table) names name = true ↔
      ∃ e ∈ table.entries, Text.lower e.1 ∈ names ∧ ∃ rule ∈ e.2, name ∈ symbolsOf table rule := by
  rw [isReferredTo, dependencies, List.any_map, List.any_eq_true]
  refine exists_congr fun e => and_congr_right fun _ => ?_
  rw [Function.comp_apply, Bool.and_eq_true, Dependency.name]
  simp

/-- What a rule refers to are symbols of the table. -/
theorem mem_names_of_mem_symbolsOf {table : RuleTable} {rule x : Text}
    (h : x ∈ symbolsOf table rule) : x ∈ (dependencies table).map (·.name) := by
  obtain ⟨r, hr, rfl⟩ := List.mem_map.1 h
  obtain ⟨e, he, hname⟩ := (NameMap.contains_iff table r.symbol).1 (List.mem_filter.1 hr).2
  rw [← hname]
  exact List.mem_map_of_mem (List.mem_map_of_mem he)

/-- A symbol is reached when it is the start or a candidate of a symbol that is reached refers to
it. -/
theorem mem_reachableFrom_iff (table : RuleTable) (start : Text) {x : Text} :
    x ∈ reachableFrom (dependencies table) start ↔ x ∈ (dependencies table).map (·.name) ∧
      (x = start ∨ ∃ e ∈ table.entries,
        Text.lower e.1 ∈ reachableFrom (dependencies table) start ∧
          ∃ rule ∈ e.2, x ∈ symbolsOf table rule) := by
  have hmonotone : MonotoneRule fun names name =>
      name = start || isReferredTo (dependencies table) names name := by
    intro few many hsub name h
    rw [Bool.or_eq_true, isReferredTo_dependencies_iff] at h ⊢
    refine h.imp id ?_
    rintro ⟨e, he, hname, hrule⟩
    exact ⟨e, he, hsub hname, hrule⟩
  rw [reachableFrom, hmonotone.mem_leastSet_iff, Bool.or_eq_true, decide_eq_true_iff,
    isReferredTo_dependencies_iff]

/-- The symbols that `start` leads to. -/
def Region.reachable (table : RuleTable) (start : Text) : Region table where
  names := reachableFrom (dependencies table) (Text.lower start)
  closed := by
    intro e he hname rule hrule x hx
    rw [mem_reachableFrom_iff]
    exact ⟨mem_names_of_mem_symbolsOf hx, .inr ⟨e, he, hname, rule, hrule, hx⟩⟩

theorem Region.mem_reachable {table : RuleTable} {start : Text}
    (h : table.contains start = true) : Text.lower start ∈ (Region.reachable table start).names := by
  obtain ⟨e, he, hname⟩ := (NameMap.contains_iff table start).1 h
  refine (mem_reachableFrom_iff table (Text.lower start)).2 ⟨?_, .inl rfl⟩
  rw [← hname]
  exact List.mem_map_of_mem (List.mem_map_of_mem he)

/-! ## What is reported -/

/-- The symbols that are reported to be unreachable are the symbols of the table that the start does
not lead to, whatever else the lint looks for. -/
theorem reports_unreachable_iff (table : RuleTable) (knows : Option (Text → Bool))
    (file : Option Text) (origin symbol : Text) :
    Finding.Reports (lint table knows (some origin) file) (LintFault.unreachableSymbol origin).code
        symbol ↔
      table.contains origin = true ∧ table.contains symbol = true ∧
        Text.lower symbol ∉ (Region.reachable table origin).names := by
  rw [NameMap.contains_iff table symbol]
  constructor
  · rintro ⟨f, hf, hcode, path, hpath, hlower⟩
    rcases mem_lint_iff.1 hf with ⟨e, -, he⟩ | ⟨start, hstart, he⟩ | he
    · obtain ⟨path', fault, hlocal, rfl⟩ := exists_fault_of_mem_symbolFindings he
      obtain ⟨start, rfl⟩ := LintFault.exists_eq_unreachableSymbol_of_code hcode
      cases hlocal
    · cases hstart
      obtain ⟨hin, e, hentry, hn, rfl⟩ := mem_unreachableFindings_iff.1 he
      cases hpath
      exact ⟨hin, ⟨e, hentry, hlower⟩, hlower ▸ hn⟩
    · obtain ⟨e, -, -, rfl⟩ := mem_nonTerminatingFindings_iff.1 he
      cases LintFault.eq_nonTerminating_of_code hcode.symm
  · rintro ⟨hin, ⟨e, he, hlower⟩, hn⟩
    refine ⟨LintFault.finding file e.1 (.unreachableSymbol origin), ?_, rfl, e.1, rfl, hlower⟩
    refine mem_lint_iff.2 (.inr (.inl ⟨origin, rfl, ?_⟩))
    exact mem_unreachableFindings_iff.2 ⟨hin, e, he, hlower ▸ hn, rfl⟩

/-- The symbols that findings with a code are about. -/
def Finding.reported (findings : List Finding) (code : Text) : List Text :=
  findings.filterMap fun f => if f.code = code then f.path else none

theorem Finding.reports_iff (findings : List Finding) (code symbol : Text) :
    Finding.Reports findings code symbol ↔
      ∃ path ∈ Finding.reported findings code, Text.lower path = Text.lower symbol := by
  simp only [Finding.Reports, Finding.reported, List.mem_filterMap]
  constructor
  · rintro ⟨f, hf, hcode, path, hpath, hlower⟩
    exact ⟨path, ⟨f, hf, (if_pos hcode).trans hpath⟩, hlower⟩
  · rintro ⟨path, ⟨f, hf, hpath⟩, hlower⟩
    obtain ⟨hcode, hpath⟩ := Option.ite_none_right_eq_some.1 hpath
    exact ⟨f, hf, hcode, path, hpath, hlower⟩

/-! ## Tables without some symbols -/

/-- A table without some symbols. -/
def RuleTable.without (table : RuleTable) (symbols : List Text) : RuleTable :=
  symbols.foldl NameMap.erase table

/-- Removing symbols does not change what any other name has. -/
theorem RuleTable.get?_without {symbols : List Text} {name : Text}
    (h : ∀ symbol ∈ symbols, Text.lower symbol ≠ Text.lower name) (table : RuleTable) :
    (table.without symbols).get? name = table.get? name := by
  induction symbols generalizing table with
  | nil => rfl
  | cons symbol symbols ih =>
    obtain ⟨hfirst, hrest⟩ := List.forall_mem_cons.1 h
    exact (ih hrest (table.erase symbol)).trans (NameMap.get?_erase_of_lower_ne table hfirst.symm)

/-- A table without some symbols has none of them, under any spelling. -/
theorem RuleTable.get?_without_eq_none {table : RuleTable} (hmap : table.WellFormed)
    {symbols : List Text} {name : Text}
    (h : ∃ symbol ∈ symbols, Text.lower symbol = Text.lower name) :
    (table.without symbols).get? name = none := by
  induction symbols generalizing table with
  | nil =>
    obtain ⟨symbol, hmem, -⟩ := h
    cases hmem
  | cons first symbols ih =>
    by_cases hrest : ∃ symbol ∈ symbols, Text.lower symbol = Text.lower name
    · exact ih (hmap.erase first) hrest
    · have hfirst : Text.lower first = Text.lower name := by
        obtain ⟨symbol, hmem, hlower⟩ := h
        rcases List.mem_cons.1 hmem with rfl | hmem
        · exact hlower
        · exact absurd ⟨symbol, hmem, hlower⟩ hrest
      have hothers : ∀ symbol ∈ symbols, Text.lower symbol ≠ Text.lower name :=
        fun symbol hmem hlower => hrest ⟨symbol, hmem, hlower⟩
      exact (get?_without hothers (table.erase first)).trans (hmap.get?_erase hfirst.symm)

/-- A table without the symbols that are reported to be unreachable agrees with the table on every
name that is seen from the symbols which the start leads to. -/
theorem Region.agree_without_reported (table : RuleTable) (knows : Option (Text → Bool))
    (file : Option Text) (origin : Text) :
    (Region.reachable table origin).Agree table (table.without
      (Finding.reported (lint table knows (some origin) file)
        (LintFault.unreachableSymbol origin).code)) := by
  intro name hsees
  refine RuleTable.get?_without (fun symbol hsymbol hlower => ?_) table
  have hreports := (Finding.reports_iff _ _ name).2 ⟨symbol, hsymbol, hlower⟩
  obtain ⟨-, hin, hn⟩ := (reports_unreachable_iff table knows file origin name).1 hreports
  exact hn (hsees hin)

end TextGrammar
