import TextGrammar.Proofs.Command.Formats
import TextGrammar.Proofs.Expansion.Asked
import TextGrammar.Proofs.Lint.Reachability
import TextGrammar.Proofs.Rule.Spelling

/-!
# The symbol that an expansion starts from

Without a rule, an expansion starts from the reference to its origin. The origin is looked up in the
table as it is, and a lint takes it as it is, too; but in the reference its name is read, and a full
stop, a hash or an opening bracket ends it there. So the expansion starts from its origin when a
reference can be made of the name, and otherwise never comes to it.

## Main results

* `ExpansionRequest.of_ofWords` — the bounds on what the options ask for.
* `parse_referenceRule_iff` — when the reference to a symbol is read as that.
* `Grammar.head?_offers_referenceRule` — the first offer when it is.
* `ExpansionRequest.starts_at_origin_iff` — when an expansion starts from its origin.
-/

namespace TextGrammar

variable {σ : Type}

/-! ## What is asked for -/

/-- A number that has to be at least `least` is. -/
theorem Verb.le_of_number? {option : Text} {least i : Int} {value : Option Text}
    (h : Verb.number? option (some least) value = .ok (some i)) : least ≤ i := by
  unfold number? at h
  split at h
  · cases h
  · split at h
    · split at h
      · rename_i hle
        cases h
        simpa using hle
      · cases h
    · cases h

/-- The depth limit of an environment is positive. -/
theorem Environment.maxDepth_pos {environment : Environment} {d : Int}
    (h : environment.maxDepth = .ok d) : 0 < d := by
  unfold maxDepth at h
  dsimp only at h
  split at h
  · cases h
    decide
  · split at h
    · split at h
      · cases h
      · cases h
        omega
    · cases h

namespace ExpansionRequest

variable {r : ExpansionRequest} {words : List Text} {c : Command}

/-- At least one expansion is asked for, and a depth limit that is asked for is positive. -/
theorem of_ofWords (h : Command.ofWords words = .ok c) (haction : c.action = .flatten r) :
    0 < r.count ∧ ∀ d, r.maxDepth = some d → 0 < d := by
  obtain ⟨before, name, after, verb, settings, path, action, -, -, -, hverb, rfl⟩ :=
    Command.ofWords_eq_ok_iff.1 h
  obtain rfl : action = .flatten r := haction
  cases verb with
  | flatten =>
    obtain ⟨count, hcount, h⟩ := exists_of_bind_eq_ok hverb
    obtain ⟨seed, -, h⟩ := exists_of_bind_eq_ok h
    obtain ⟨maxDepth, hmaxDepth, h⟩ := exists_of_bind_eq_ok h
    cases h
    refine ⟨?_, fun d hd => ?_⟩
    · cases count with
      | none => exact Nat.one_pos
      | some n =>
        have hle := Verb.le_of_number? hcount
        show 0 < n.toNat
        omega
    · obtain rfl : maxDepth = some d := hd
      have hle := Verb.le_of_number? hmaxDepth
      omega
  | _ => cases hverb

/-- The expansions that words ask for have a level left for what is inside their rule. -/
theorem maxDepth_pos_of_prepare (h : Command.ofWords words = .ok c)
    (haction : c.action = .flatten r) {around : Surroundings} {table : RuleTable}
    {path rule : Text} {selector : Selector MersenneTwister} {g : Grammar}
    (hprepare : r.prepare around table path = .ok (rule, selector, g)) : 0 < g.maxDepth := by
  obtain ⟨-, hgrammar⟩ := of_prepare_eq_ok hprepare
  obtain ⟨-, -, hasked | henv⟩ := of_grammarIn_eq_ok hgrammar
  · exact (of_ofWords h haction).2 g.maxDepth hasked
  · exact Environment.maxDepth_pos henv

end ExpansionRequest

/-- Every row of a table has a name that is spelt by a key. -/
theorem AreRows.exists_key {entries : List (Value × Value)} {rows : List (Text × List Text)}
    (h : AreRows entries rows) : ∀ row ∈ rows, ∃ key, Spells key row.1 := by
  induction h with
  | nil => simp
  | @cons e row _ _ hfirst _ ih => exact List.forall_mem_cons.2 ⟨⟨e.1, hfirst.1⟩, ih⟩

/-- A symbol of a table that is taken from a mapping is not empty, in any spelling. -/
theorem ne_nil_of_validate {raw : List (Value × Value)} {table : RuleTable}
    (h : TextGrammar.validate raw = .ok table) {symbol : Text}
    (hin : table.contains symbol = true) : symbol ≠ [] := by
  obtain ⟨hnone, hentries⟩ := entries_of_validate_eq_ok h
  obtain ⟨hrows, -⟩ := areRows_of_checkEntries recalls_nil hnone
  obtain ⟨row, hrow, hname⟩ := (NameMap.contains_iff table symbol).1 hin
  rw [hentries] at hrow
  obtain ⟨key, -, c, hc, -⟩ := hrows.exists_key row hrow
  rintro rfl
  rw [Text.lower_nil, Text.lower_eq_nil_iff] at hname
  rw [hname] at hc
  cases hc

/-! ## References that name a symbol -/

/-- The reference to a symbol is read as one reference that names it whole, with nothing else, when
a reference can be made of the name. -/
theorem parse_referenceRule_iff {symbol : Text} :
    (∃ ref : Reference, parse (referenceRule symbol) = [.reference ref] ∧ ref.symbol = symbol ∧
      ref.modifiers = [] ∧ ref.bindings = []) ↔ SymbolName symbol := by
  constructor
  · rintro ⟨ref, hparse, hsymbol, -⟩
    have hmem : .reference ref ∈ parse (referenceRule symbol) := by simp [hparse]
    obtain ⟨⟨hh, ho⟩, hdot⟩ := hsymbol ▸ plain_names_of_mem_parse hmem ref.symbol List.mem_cons_self
    refine ⟨?_, hh, ho, hdot⟩
    rintro rfl
    have hhashes : parse (referenceRule []) = [.text "##".toList] := by
      rw [referenceRule, List.singleton_append, parse_hash_hash,
        parse_open_hash (closeReference_nil 0)]
      rfl
    rw [hhashes] at hparse
    cases hparse
  · intro h
    have hparse := parse_hash_symbol h
    rw [h.ofBody_eq] at hparse
    exact ⟨_, hparse, rfl, rfl, rfl⟩

/-! ## The first offer -/

namespace Grammar

/-- A reference that names a symbol whole asks for that symbol before anything else. -/
theorem head?_offers_referenceRule (g : Grammar) (pick : Pick σ) (selector : σ)
    (hdepth : 0 ≤ g.maxDepth) {origin : Text} (horigin : SymbolName origin)
    {candidates : List Text} (hget : g.rules.get? origin = some candidates) :
    (offersIn (g.flatten pick selector (referenceRule origin)).events).head?
      = some ⟨origin, candidates⟩ := by
  obtain ⟨levels, hlevels⟩ : ∃ levels, (g.maxDepth + 1).toNat = levels + 1 :=
    ⟨g.maxDepth.toNat, by omega⟩
  let ref : Reference := ⟨referenceRule origin, origin, [], []⟩
  let start := Machine.start g selector (referenceRule origin)
  let asking : Machine σ := ⟨.bindings levels [] ref, [.parts levels [] []], g.start selector⟩
  have hparse : parse (referenceRule origin) = [.reference ref] :=
    (parse_hash_symbol horigin).trans (by rw [horigin.ofBody_eq]; rfl)
  have hparts : start.next (g.setting pick)
      = some ⟨.parts levels [] [.reference ref], [], g.start selector⟩ := by
    show (⟨.rule (g.maxDepth + 1).toNat _, [], _⟩ : Machine σ).next _ = _
    rw [hlevels, Machine.next_rule_of_within (g.setting pick) levels [] rfl rfl, hparse]
  have hasking : Walks (g.setting pick) start asking := Walks.head hparts (.single rfl)
  have hoffer : asking.offer? = some ⟨origin, candidates⟩ := by
    simp [asking, ref, Machine.offer?, Grammar.start, hget]
  obtain ⟨asked, hstep⟩ : ∃ asked, asking.next (g.setting pick) = some asked :=
    Option.isSome_iff_exists.1 rfl
  have hprefix := offers_prefix_of_walks (hasking.trans (.single hstep))
  rw [Machine.offers_of_next hstep, hoffer] at hprefix
  obtain ⟨later, hlater⟩ := hprefix
  rw [← hlater]
  rfl

end Grammar

/-! ## Whole commands -/

namespace ExpansionRequest

variable {r : ExpansionRequest} {words : List Text} {c : Command} {around : Surroundings}
  {table : RuleTable} {path rule : Text} {selector : Selector MersenneTwister} {g : Grammar}

/-- Without a rule the reference to the origin is expanded. -/
theorem rule_of_prepare (hrule : r.rule = none)
    (h : r.prepare around table path = .ok (rule, selector, g)) : rule = referenceRule r.origin := by
  obtain ⟨hin, -⟩ := of_prepare_eq_ok h
  rw [ruleIn, hrule] at hin
  dsimp only at hin
  split at hin
  · cases hin
    rfl
  · cases hin

theorem events_of_prepare (h : r.prepare around table path = .ok (rule, selector, g)) :
    (r.report around table path).events
      = (g.flattenMany Selector.pick selector rule r.count).events := by
  simp only [report, h]

/-- The first of the expansions that words ask for asks for the origin first. -/
theorem head?_offers_report (hwords : Command.ofWords words = .ok c)
    (haction : c.action = .flatten r) (horigin : SymbolName r.origin)
    (hin : table.contains r.origin = true)
    (h : r.prepare around table path = .ok (referenceRule r.origin, selector, g)) :
    (offersIn (r.report around table path).events).head?
      = some ⟨r.origin, table.candidates r.origin⟩ := by
  obtain ⟨count, hcount⟩ : ∃ count, r.count = count + 1 :=
    Nat.exists_eq_add_one.2 (of_ofWords hwords haction).1
  obtain ⟨candidates, hget⟩ := NameMap.exists_get?_of_contains hin
  have hrules : g.rules = table := (of_grammarIn_eq_ok (of_prepare_eq_ok h).2).1
  have hdepth : 0 ≤ g.maxDepth := (maxDepth_pos_of_prepare hwords haction h).le
  have hfirst :=
    g.head?_offers_referenceRule Selector.pick selector hdepth horigin (hrules ▸ hget)
  obtain ⟨later, hlater⟩ :=
    g.offers_flatten_prefix Selector.pick selector (referenceRule r.origin) count
  rw [events_of_prepare h, hcount, ← hlater, List.head?_append, hfirst, RuleTable.candidates, hget]
  rfl

/-- **Where an expansion starts.** An expansion that is asked for without a rule, from an origin in
the table of a mapping, expands the reference to the origin. That is read as one reference to the
origin, without modifiers and bindings, exactly when the name holds no hash, no opening bracket and
no full stop. So the first symbol that the selector is asked for is the origin, with its candidates,
exactly in that case; in the other the selector is not asked for the origin at all, in no spelling.
A lint starts from the origin in both. -/
theorem starts_at_origin_iff {raw : List (Value × Value)}
    (hwords : Command.ofWords words = .ok c) (haction : c.action = .flatten r)
    (hrule : r.rule = none) (htable : TextGrammar.validate raw = .ok table)
    (hin : table.contains r.origin = true)
    (hprepare : r.prepare around table path = .ok (rule, selector, g)) :
    let offers := offersIn (r.report around table path).events
    let isName := Plain r.origin ∧ '.' ∉ r.origin
    rule = referenceRule r.origin ∧
    ((∃ ref : Reference, parse (referenceRule r.origin) = [.reference ref] ∧
      ref.symbol = r.origin ∧ ref.modifiers = [] ∧ ref.bindings = []) ↔ isName) ∧
    (offers.head? = some ⟨r.origin, table.candidates r.origin⟩ ↔ isName) ∧
    (¬ isName → ∀ o ∈ offers, Text.lower o.symbol ≠ Text.lower r.origin) ∧
    ∀ knows file, ¬ Finding.Reports (lint table knows (some r.origin) file)
      (LintFault.unreachableSymbol r.origin).code r.origin := by
  intro offers isName
  have hne : ∀ symbol, Text.lower symbol = Text.lower r.origin → symbol ≠ [] := by
    intro symbol hlower
    exact ne_nil_of_validate htable ((NameMap.contains_congr table hlower).trans hin)
  have hname : SymbolName r.origin ↔ isName :=
    ⟨fun h => ⟨⟨h.2.1, h.2.2.1⟩, h.2.2.2⟩, fun h => ⟨hne _ rfl, h.1.1, h.1.2, h.2⟩⟩
  have hoffers : ∀ o ∈ offers, Plain o.symbol ∧ '.' ∉ o.symbol := by
    intro o ho
    simp only [offers, events_of_prepare hprepare] at ho
    exact Grammar.plain_symbol_of_offer ho
  obtain rfl := rule_of_prepare hrule hprepare
  refine ⟨rfl, parse_referenceRule_iff.trans hname, ⟨fun h => ?_, fun h => ?_⟩,
    fun hno o ho hlower => hno ?_, fun knows file hreports => ?_⟩
  · exact hoffers _ (List.mem_of_head? h)
  · exact head?_offers_report hwords haction (hname.2 h) hin hprepare
  · obtain ⟨⟨hhash, hbracket⟩, hdot⟩ := hoffers o ho
    have hsymbol : SymbolName o.symbol := ⟨hne _ hlower, hhash, hbracket, hdot⟩
    exact hname.1 ((symbolName_congr hlower.symm).2 hsymbol)
  · obtain ⟨-, -, hn⟩ := (reports_unreachable_iff table knows file r.origin r.origin).1 hreports
    exact hn (Region.mem_reachable hin)

end ExpansionRequest

/-! ## Two origins -/

namespace Command

/-- A file that holds one symbol with one candidate, and nothing else around. -/
def soleTale (symbol candidate : String) : Surroundings where
  files path :=
    if path = Path.ofText "tale.json".toList then
      .found (.file (("\x7b\"" ++ symbol ++ "\": \"" ++ candidate ++ "\"\x7d").toList.map
        (·.toNat.toUInt8)))
    else .nothing
  environment := []
  seed := 0

/-- What that file holds. -/
def soleEntry (symbol candidate : String) : List (Value × Value) :=
  [(.text symbol.toList, .text candidate.toList)]

/-- One expansion from an origin, by the first candidates. -/
def fromOrigin (origin : String) : ExpansionRequest where
  rule := none
  origin := origin.toList
  count := 1
  seed := none
  selector := some "first".toList
  keepsBindings := false
  maxDepth := none
  strict := false

/-- The command for that expansion. -/
def tellFrom (origin : String) : Command where
  verbose := false
  path := "tale.json".toList
  format := "text".toList
  action := .flatten (fromOrigin origin)

/-- The words that ask for it. -/
def tellWords (origin : String) : List Text :=
  ["flatten", "tale.json", "--origin", origin, "--selector", "first"].map String.toList

/-- A tale whose symbol is a plain name starts from it. -/
theorem plainTale_starts_at_origin :
    let raw := soleEntry "origin" "once"
    let table : RuleTable := .ofList [("origin".toList, ["once".toList])]
    let r := fromOrigin "origin"
    (ofWords (tellWords "origin") = .ok (tellFrom "origin") ∧
      TextGrammar.validate raw = .ok table ∧ table.contains r.origin = true) ∧
    ∃ rule selector g, r.prepare (soleTale "origin" "once") table "tale.json".toList
        = .ok (rule, selector, g) ∧
      rule = "#origin#".toList ∧
      (offersIn (r.report (soleTale "origin" "once") table "tale.json".toList).events).head?
        = some ⟨"origin".toList, ["once".toList]⟩ := by
  intro raw table r
  have hwords : ofWords (tellWords "origin") = .ok (tellFrom "origin") := by rfl
  have htable : TextGrammar.validate raw = .ok table := by rfl
  have hin : table.contains r.origin = true := by decide +kernel
  have hname : Plain r.origin ∧ '.' ∉ r.origin := by decide +kernel
  have hcandidates : table.candidates r.origin = ["once".toList] := by decide +kernel
  obtain ⟨⟨rule, selector, g⟩, hprepare⟩ : ∃ prepared,
      r.prepare (soleTale "origin" "once") table "tale.json".toList = .ok prepared := ⟨_, rfl⟩
  obtain ⟨hrule, -, hfirst, -⟩ :=
    ExpansionRequest.starts_at_origin_iff hwords rfl rfl htable hin hprepare
  refine ⟨⟨hwords, htable, hin⟩, rule, selector, g, hprepare, hrule.trans (by rfl), ?_⟩
  rw [← hcandidates]
  exact hfirst.2 hname

/-- A tale whose symbol holds a full stop is accepted and its symbol is found, but the tale starts
from what stands in front of the full stop; the lint, which starts from the symbol, finds nothing
wrong. -/
theorem dottedTale_starts_elsewhere :
    let raw := soleEntry "a.b" "x"
    let table : RuleTable := .ofList [("a.b".toList, ["x".toList])]
    let lint : Command := { tellFrom "a.b" with action := .lint "a.b".toList }
    ofWords (tellWords "a.b") = .ok (tellFrom "a.b") ∧
    TextGrammar.validate raw = .ok table ∧ table.contains "a.b".toList = true ∧
    parse (referenceRule "a.b".toList)
      = [.reference ⟨"#a.b#".toList, "a".toList, ["b".toList], []⟩] ∧
    offersIn ((tellFrom "a.b").report (soleTale "a.b" "x")).events = [] ∧
    (tellFrom "a.b").run (soleTale "a.b" "x") = ⟨0, lines ["a".toList], []⟩ ∧
    lint.run (soleTale "a.b" "x") = ⟨0, lines ["OK: lint passed".toList], []⟩ := by
  refine ⟨rfl, rfl, ?_, ?_, ?_, ?_, ?_⟩
  all_goals decide +kernel

end Command

end TextGrammar
