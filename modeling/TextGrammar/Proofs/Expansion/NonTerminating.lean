import TextGrammar.Proofs.Expansion.Judgment
import TextGrammar.Proofs.Expansion.Strictness
import TextGrammar.Proofs.Lint.Finishing
import TextGrammar.Select.MersenneTwister

/-!
# Symbols that never finish pass every limit

Whatever candidate is chosen for a symbol that never finishes, it refers to such a symbol again, be
it inside a binding. So a strict expansion of the symbol never ends with a text, however many levels
it is given: it goes through the parts before that reference, which may bind what they like as long
as they bind no symbol of the table, and then has a level less for a rule of the same kind.

## Main definitions

* `RuleTable.SparesItself` — no candidate binds a symbol of the table.
* `RuleTable.IsStuck` — a rule that refers to a symbol which never finishes.
* `Run.Spares` — the symbols of the table are as they were; every step keeps it.

## Main results

* `never_flatten` — a rule that is stuck never expands to a text.
* `Grammar.passesLimit_of_reports` — what is reported never to finish passes every depth limit.
-/

namespace TextGrammar

variable {σ : Type}

namespace RuleTable

/-- No binding of a rule, at any depth, writes a symbol of the table. -/
def SparedBy (table : RuleTable) (rule : Text) : Prop :=
  ∀ b ∈ bindingsIn rule, b.rule ≠ none → table.contains b.name = false

/-- No binding of a candidate, at any depth, writes a symbol of the table. -/
def SparesItself (table : RuleTable) : Prop :=
  ∀ candidates ∈ table.values, ∀ rule ∈ candidates, table.SparedBy rule

/-- A well-formed rule whose bindings leave the symbols of the table alone. -/
def Admits (table : RuleTable) (rule : Text) : Prop := WellFormedRule rule ∧ table.SparedBy rule

/-- A rule that refers, at some depth, to a symbol that never finishes. -/
def IsStuck (table : RuleTable) (rule : Text) : Prop :=
  ∃ x ∈ symbolsOf table rule, x ∉ finishing (dependencies table)

end RuleTable

/-! ## Rules that leave the symbols of a table alone -/

section Rules

variable {table : RuleTable} {rule : Text} {r : Reference} {b : Binding}

theorem admits_of_plain {t : Text} (h : Plain t) : table.Admits t := by
  refine ⟨wellFormedRule_of_plain h, fun b hb => ?_⟩
  rw [bindingsIn_of_plain h] at hb
  cases hb

theorem RuleTable.Admits.asked (h : table.Admits rule) (hr : .reference r ∈ parse rule)
    (hb : b ∈ r.bindings) : table.Admits b.asked :=
  ⟨h.1.asked hr hb, fun seen hseen =>
    h.2 seen (h.1.mem_bindingsIn_iff.2 ⟨r, b, hr, hb, .inr hseen⟩)⟩

theorem RuleTable.Admits.contains_name (h : table.Admits rule) (hr : .reference r ∈ parse rule)
    (hb : b ∈ r.bindings) (hrule : b.rule ≠ none) : table.contains b.name = false :=
  h.2 b (h.1.mem_bindingsIn_iff.2 ⟨r, b, hr, hb, .inl rfl⟩) hrule

/-- Nothing in a plain text refers to a symbol. -/
theorem not_isStuck_of_plain {t : Text} (h : Plain t) : ¬ table.IsStuck t := by
  rintro ⟨x, hx, -⟩
  rw [symbolsOf, referencesIn_of_plain h] at hx
  cases hx

/-- A rule is stuck at one of its references: at what a binding asks for, or at the symbol. -/
theorem RuleTable.IsStuck.exists_reference (h : table.IsStuck rule) (hrule : WellFormedRule rule) :
    ∃ r, .reference r ∈ parse rule ∧ ((∃ b ∈ r.bindings, table.IsStuck b.asked) ∨
      table.contains r.symbol = true ∧
        Text.lower r.symbol ∉ finishing (dependencies table)) := by
  obtain ⟨x, hx, hn⟩ := h
  obtain ⟨r, hr, ⟨hin, rfl⟩ | ⟨b, hb, hasked⟩⟩ := hrule.mem_symbolsOf_iff.1 hx
  · exact ⟨r, hr, .inr ⟨hin, hn⟩⟩
  · exact ⟨r, hr, .inl ⟨b, hb, x, hasked, hn⟩⟩

end Rules

/-! ## Runs that leave the symbols of a table alone -/

/-- Bound values are plain and candidates leave the symbols of the table alone; these are not bound
and have the candidates that the table gives them; and the selector chooses among the candidates. -/
structure Run.Spares (table : RuleTable) (pick : Pick σ) (run : Run σ) : Prop where
  bound : ∀ value ∈ run.bound.values, Plain value
  rules : ∀ candidates ∈ run.rules.values, ∀ rule ∈ candidates, table.Admits rule
  unbound : ∀ symbol, table.contains symbol = true → run.bound.get? symbol = none
  same : ∀ symbol, table.contains symbol = true → run.rules.get? symbol = table.get? symbol
  selector : pick.Chooses run.selector

section Runs

variable {table : RuleTable} {pick : Pick σ} {run : Run σ}

/-- Writing a name that is no symbol of the table leaves these alone. -/
theorem Run.Spares.bind (h : run.Spares table pick) (keeps : Bool) {name value : Text}
    (hname : table.contains name = false) (hv : Plain value) :
    (run.bind keeps name value).Spares table pick := by
  have hother : ∀ symbol, table.contains symbol = true → Text.lower symbol ≠ Text.lower name := by
    intro symbol hsymbol hlower
    rw [NameMap.contains_eq_isSome, NameMap.get?_congr table hlower,
      ← NameMap.contains_eq_isSome, hname] at hsymbol
    cases hsymbol
  refine ⟨Run.plain_values_bind h.bound hv keeps,
    Run.candidates_bind h.rules (admits_of_plain hv) keeps, fun symbol hsymbol => ?_, ?_, h.selector⟩
  · exact (NameMap.get?_insert_of_lower_ne _ _ (hother symbol hsymbol)).trans
      (h.unbound symbol hsymbol)
  · cases keeps with
    | false => exact h.same
    | true =>
      intro symbol hsymbol
      exact (NameMap.get?_insert_of_lower_ne _ _ (hother symbol hsymbol)).trans
        (h.same symbol hsymbol)

theorem Run.Spares.choose (h : run.Spares table pick) (symbol : Text) (candidates : List Text) :
    (run.choose pick symbol candidates).2.Spares table pick :=
  ⟨h.bound, h.rules, h.unbound, h.same, h.selector.next symbol candidates⟩

variable {s : Setting σ}

/-- What leaves the symbols of the table alone is kept so by everything that the parts of a rule
are expanded with. -/
theorem judgment_spares (hm : Registry.KeepsPlain s.modifiers) :
    Judgment s (fun P x => Keeps (Run.Spares table s.pick) P x)
      (fun name => table.contains name = false) where
  answer := Keeps.answer
  sequence := Keeps.sequence
  write hname hv := Keeps.change fun _ h => h.bind s.keepsBindings hname hv
  note _ _ := Keeps.change fun _ h => ⟨h.bound, h.rules, h.unbound, h.same, h.selector⟩
  modifiers := hm

/-- Every symbol stands for a rule that leaves the symbols of the table alone. -/
theorem keeps_resolve_admits {symbol : Text} (hs : Plain symbol) :
    Keeps (Run.Spares table s.pick) table.Admits (resolve s symbol) := by
  refine (Ends.lookUp (fun run value h hb => ?_) (fun run candidates h hr => ?_)
    fun _ _ _ => admits_of_plain hs).keeps
  · exact admits_of_plain (h.bound value (NameMap.mem_values_of_get? hb))
  · exact ⟨Run.choose_of_offers h.rules (admits_of_plain plain_nil) h.selector.offers hr,
      h.choose symbol candidates⟩

theorem RuleTable.Admits.fits {rule : Text} (h : table.Admits rule) {r : Reference}
    (hr : .reference r ∈ parse rule) :
    r.Fits s (fun P x => Keeps (Run.Spares table s.pick) P x)
      (fun name => table.contains name = false) table.Admits where
  asked := fun _ hb => h.asked hr hb
  names := fun _ hb hrule => h.contains_name hr hb hrule
  lookUp := keeps_resolve_admits (plain_symbol_of_mem_parse hr)

/-- A symbol that never finishes stands for a rule that is stuck. -/
theorem keeps_resolve_stuck {symbol : Text} (hin : table.contains symbol = true)
    (hn : Text.lower symbol ∉ finishing (dependencies table)) :
    Keeps (Run.Spares table s.pick) (fun rule => table.Admits rule ∧ table.IsStuck rule)
      (resolve s symbol) := by
  refine (Ends.lookUp (fun run value h hb => ?_) (fun run candidates h hr => ?_)
    fun run h hr => ?_).keeps
  · rw [h.unbound symbol hin] at hb
    cases hb
  · have hget : table.get? symbol = some candidates := (h.same symbol hin).symm.trans hr
    obtain ⟨hne, hstuck⟩ := exists_mem_symbolsOf_of_not_mem_finishing hget hn
    have hmem : (run.choose s.pick symbol candidates).1 ∈ candidates :=
      (h.selector.answer symbol candidates).resolve_left fun hnone => hne hnone.1
    exact ⟨⟨h.rules candidates (NameMap.mem_values_of_get? hr) _ hmem, hstuck _ hmem⟩,
      h.choose symbol candidates⟩
  · have hnone : table.get? symbol = none := (h.same symbol hin).symm.trans hr
    rw [NameMap.contains_eq_isSome, hnone] at hin
    cases hin

end Runs

/-! ## Rules that are stuck -/

/-- A step that never ends is never gone on after. -/
theorem Keeps.sequence_of_never {α β : Type} {I : Run σ → Prop} {P : β → Prop} {x : Expansion σ α}
    {f : α → Expansion σ β} (h : Keeps I (fun _ => False) x) : Keeps I P (x >>= f) :=
  h.sequence fun _ hfalse => hfalse.elim

section Never

variable {table : RuleTable} {s : Setting σ} {inner : Text → Expansion σ Text}

/-- Bindings never end when one of them asks for what never ends. -/
theorem never_runBindings {I : Run σ → Prop} {names R : Text → Prop}
    (j : Judgment s (fun P x => Keeps I P x) names)
    (hinner : ∀ ⦃rule⦄, R rule → Keeps I Plain (inner rule)) {bindings : List Binding}
    (hasked : ∀ b ∈ bindings, R b.asked) (hnames : ∀ b ∈ bindings, b.rule ≠ none → names b.name)
    (hnever : ∃ b ∈ bindings, Keeps I (fun _ => False) (inner b.asked)) :
    Keeps I (fun _ => False) (runBindings s inner bindings) := by
  induction bindings with
  | nil =>
    obtain ⟨b, hb, -⟩ := hnever
    cases hb
  | cons first rest ih =>
    obtain ⟨hfirst, hrest⟩ := List.forall_mem_cons.1 hasked
    obtain ⟨hname, hothers⟩ := List.forall_mem_cons.1 hnames
    obtain ⟨b, hb, hstuck⟩ := hnever
    rw [runBindings]
    rcases List.mem_cons.1 hb with rfl | hb
    · refine Keeps.sequence_of_never ?_
      unfold runBinding
      cases hrule : b.rule with
      | none =>
        rw [Binding.asked_of_none hrule] at hstuck
        exact hstuck.sequence_of_never
      | some rule =>
        rw [Binding.asked_of_some hrule] at hstuck
        exact hstuck.sequence_of_never
    · exact (j.runBinding hinner hfirst hname).sequence fun _ _ =>
        ih hrest hothers ⟨b, hb, hstuck⟩

/-- A reference never ends when a binding of it asks for what never ends, or its symbol never
finishes. -/
theorem never_expandReference (hm : Registry.KeepsPlain s.modifiers)
    (hinner : ∀ ⦃rule⦄, table.Admits rule → Keeps (Run.Spares table s.pick) Plain (inner rule))
    (hnever : ∀ ⦃rule⦄, table.Admits rule → table.IsStuck rule →
      Keeps (Run.Spares table s.pick) (fun _ => False) (inner rule))
    {rule : Text} (hrule : table.Admits rule) {r : Reference} (hr : .reference r ∈ parse rule)
    (hstuck : (∃ b ∈ r.bindings, table.IsStuck b.asked) ∨
      table.contains r.symbol = true ∧ Text.lower r.symbol ∉ finishing (dependencies table)) :
    Keeps (Run.Spares table s.pick) (fun _ => False) (expandReference s inner r) := by
  have hj : Judgment s (fun P x => Keeps (Run.Spares table s.pick) P x)
      (fun name => table.contains name = false) := judgment_spares hm
  have hfits := hrule.fits (s := s) hr
  rw [expandReference]
  rcases hstuck with ⟨b, hb, hb'⟩ | ⟨hin, hn⟩
  · refine Keeps.sequence_of_never (never_runBindings hj hinner hfits.asked hfits.names ?_)
    exact ⟨b, hb, hnever (hrule.asked hr hb) hb'⟩
  · refine (hj.runBindings hinner hfits.asked hfits.names).sequence fun _ _ => ?_
    refine (keeps_resolve_stuck hin hn).sequence fun value hv => ?_
    exact (hnever hv.1 hv.2).sequence_of_never

/-- Parts of a rule never end when one of them never does. -/
theorem never_expandNodes {I : Run σ → Prop} {nodes : List Node}
    (hnodes : ∀ node ∈ nodes, Keeps I Plain (expandNode s inner node))
    (hnever : ∃ node ∈ nodes, Keeps I (fun _ => False) (expandNode s inner node)) :
    Keeps I (fun _ => False) (expandNodes s inner nodes) := by
  induction nodes with
  | nil =>
    obtain ⟨node, hn, -⟩ := hnever
    cases hn
  | cons first rest ih =>
    obtain ⟨hfirst, hrest⟩ := List.forall_mem_cons.1 hnodes
    obtain ⟨node, hn, hstuck⟩ := hnever
    rw [expandNodes]
    rcases List.mem_cons.1 hn with rfl | hn
    · exact hstuck.sequence_of_never
    · exact hfirst.sequence fun _ _ => (ih hrest ⟨node, hn, hstuck⟩).sequence_of_never

/-- A strict expansion of a rule that is stuck never ends with a text, whatever levels it has. -/
theorem never_flatten (hs : s.strict = true) (hm : Registry.KeepsPlain s.modifiers)
    (levels : Nat) : ∀ ⦃rule⦄, table.Admits rule → table.IsStuck rule →
      Keeps (Run.Spares table s.pick) (fun _ => False) (flatten s levels rule) := by
  have hall : ∀ levels, ∀ ⦃rule⦄, table.Admits rule →
      Keeps (Run.Spares table s.pick) Plain (flatten s levels rule) :=
    (judgment_spares hm).keeps_flatten hs (fun _ => admits_of_plain) (fun _ h => h.1)
      fun _ h _ hr => h.fits hr
  induction levels with
  | zero =>
    intro rule _ hstuck run last text _ hx
    rcases flatten_eq_ok_of_strict hs hx with ⟨hnone, -⟩ | ⟨fewer, hfewer, -⟩
    · exact absurd hstuck (not_isStuck_of_plain (hasSyntax_eq_false_iff.1 hnone))
    · omega
  | succ levels ih =>
    intro rule hrule hstuck run last text hrun hx
    rcases flatten_eq_ok_of_strict hs hx with ⟨hnone, -⟩ | ⟨fewer, hfewer, -, -, hparts⟩
    · exact absurd hstuck (not_isStuck_of_plain (hasSyntax_eq_false_iff.1 hnone))
    · obtain rfl : levels = fewer := Nat.succ.inj hfewer
      obtain ⟨r, hr, hwhere⟩ := hstuck.exists_reference hrule.1
      have hnodes : ∀ node ∈ parse rule, Keeps (Run.Spares table s.pick) Plain
          (expandNode s (flatten s levels) node) := fun node hn =>
        (judgment_spares hm).expandNode (hall levels) (fun _ => admits_of_plain) hrule.1
          (fun _ h => hrule.fits h) hn
      have hnever : Keeps (Run.Spares table s.pick) (fun _ => False)
          (expandNode s (flatten s levels) (.reference r)) :=
        never_expandReference hm (hall levels) ih hrule hr hwhere
      exact never_expandNodes hnodes ⟨_, hr, hnever⟩ hrun hparts

end Never

namespace Grammar

/-- The run that an expansion of rules which bind no symbol starts with. -/
theorem start_spares {g : Grammar} {pick : Pick σ} {selector : σ}
    (htable : RuleTable.WellFormedRules g.rules) (hspares : RuleTable.SparesItself g.rules)
    (hpick : pick.Chooses selector) : (g.start selector).Spares g.rules pick where
  bound := fun _ hv => (List.not_mem_nil hv).elim
  rules := fun candidates hc rule hr => ⟨htable candidates hc rule hr, hspares candidates hc rule hr⟩
  unbound := fun _ _ => rfl
  same := fun _ _ => rfl
  selector := hpick

/-- Expanding a symbol that is reported never to finish passes every depth limit, whatever is chosen
for it: when passing the limit is an error the expansion fails, and else it warns of the rule that
lies too deep. -/
theorem passesLimit_of_reports (g : Grammar) (pick : Pick σ) (selector : σ)
    (htable : RuleTable.WellFormedRules g.rules) (hspares : RuleTable.SparesItself g.rules)
    (hm : Registry.KeepsPlain g.modifiers) (hpick : pick.Chooses selector)
    (knows : Option (Text → Bool)) (origin file : Option Text) {symbol : Text}
    (hsymbol : SymbolName symbol) (hreports : Finding.Reports (lint g.rules knows origin file)
      LintFault.nonTerminating.code symbol) :
    let rule := '#' :: symbol ++ ['#']
    let strict := { g with strict := true }.flatten pick selector rule
    let lenient := { g with strict := false }.flatten pick selector rule
    ∃ e, strict.result = .error e ∧
      (∃ text, lenient.result = .ok text) ∧ lenient.depthWarnings = [e] := by
  intro rule strict lenient
  obtain ⟨hin, hn⟩ := (reports_nonTerminating_iff g.rules knows origin file symbol).1 hreports
  have hrule : g.rules.Admits rule := by
    refine ⟨hsymbol.wellFormedRule_asReference (b := ⟨symbol, none⟩), fun b hb => ?_⟩
    rw [hsymbol.bindingsIn_eq] at hb
    cases hb
  have hstuck : RuleTable.IsStuck g.rules rule := by
    refine ⟨Text.lower symbol, ?_, hn⟩
    rw [hsymbol.symbolsOf_eq hin]
    exact List.mem_singleton.2 rfl
  cases hx : flattenTop { g.setting pick with strict := true } rule (g.start selector) with
  | ok text last =>
    exact (never_flatten (s := { g.setting pick with strict := true }) rfl hm _ hrule hstuck
      (start_spares htable hspares hpick) hx).1.elim
  | error e stop =>
    obtain ⟨text, htext, hwarn⟩ : ∃ text, lenient.result = .ok text ∧ lenient.depthWarnings = [e] :=
      lenient_of_error (g := { g with strict := false }) rfl hx
    exact ⟨e, strict_of_error hx, ⟨text, htext⟩, hwarn⟩

/-- A tale that is told within itself, once in the open and once inside a binding. -/
def endlessTale : Grammar where
  rules := .ofList [("origin".toList, ["#[hero:#name.loud#]tale#".toList]),
    ("tale".toList, ["#hero# says: #tale#".toList, "#[moral:so #tale#]moral#".toList]),
    ("name".toList, ["Anna".toList, "Bob".toList])]
  modifiers := .loud
  keepsBindings := true

/-- The tale never comes to an end, however its start is spelled. -/
theorem endlessTale_passesLimit :
    let pick := (Selector.pick : Pick (Selector MersenneTwister))
    let strict := { endlessTale with strict := true }.flatten pick (.sequential ∅) "#Origin#".toList
    let lenient :=
      { endlessTale with strict := false }.flatten pick (.sequential ∅) "#Origin#".toList
    (RuleTable.WellFormedRules endlessTale.rules ∧ RuleTable.SparesItself endlessTale.rules ∧
      Registry.KeepsPlain endlessTale.modifiers ∧ Pick.Chooses pick (.sequential ∅) ∧
      SymbolName "Origin".toList ∧ Finding.Reports (lint endlessTale.rules none none none)
        LintFault.nonTerminating.code "Origin".toList) ∧
    ∃ e, strict.result = .error e ∧
      (∃ text, lenient.result = .ok text) ∧ lenient.depthWarnings = [e] := by
  intro pick strict lenient
  have htable : RuleTable.WellFormedRules endlessTale.rules := by
    unfold RuleTable.WellFormedRules
    decide +kernel
  have hspares : RuleTable.SparesItself endlessTale.rules := by
    unfold RuleTable.SparesItself RuleTable.SparedBy
    decide +kernel
  have hm : Registry.KeepsPlain endlessTale.modifiers := keepsPlain_loud
  have hsymbol : SymbolName "Origin".toList := by decide +kernel
  have hreports : Finding.Reports (lint endlessTale.rules none none none)
      LintFault.nonTerminating.code "Origin".toList :=
    (reports_nonTerminating_iff _ _ _ _ _).2 (by decide +kernel)
  have hpick : Pick.Chooses pick (.sequential ∅) := chooses_sequential ∅
  have hpasses := passesLimit_of_reports endlessTale pick (.sequential ∅) htable hspares hm hpick
    none none none hsymbol hreports
  have hrule : '#' :: "Origin".toList ++ ['#'] = "#Origin#".toList := by decide +kernel
  rw [hrule] at hpasses
  exact ⟨⟨htable, hspares, hm, hpick, hsymbol, hreports⟩, hpasses⟩

end Grammar

end TextGrammar
