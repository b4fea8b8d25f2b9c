import TextGrammar.Proofs.Lint.Places
import TextGrammar.Proofs.Lint.WorkList

/-!
# What a lint lists

A lint lists every symbol without candidates, every reference to an unknown name, every unknown
modifier, every symbol that the start does not lead to and every symbol without a finite derivation,
each once where it is found, sorted by file, path and code, and nothing else. This determines the
list: it does not depend on the order in which the symbols of a table stand.

## Main definitions

* `Finding.OnceIf` — a finding is listed once if something holds, and not at all otherwise.
* `RuleTable.HasPlace` — the places and codes of what can be doubtful in a table.
* `Lists` — what a lint of a table lists.

## Main results

* `lists_lint` — a lint lists this.
* `Lists.unique` — nothing else can be listed.
* `lint_lists_exactly` — what is listed, found by loops that end.
* `lint_eq_of_perm` — the order of a table does not matter.
-/

namespace TextGrammar

/-- A finding is the only one of a list if something holds, and otherwise the list is empty. -/
def Finding.OnceIf (p : Prop) (f : Finding) (findings : List Finding) : Prop :=
  (p → findings = [f]) ∧ (¬ p → findings = [])

theorem Finding.onceIf_of_eq {p q : Prop} [Decidable p] {f : Finding} {l : List Finding}
    (h : l = if p then [f] else []) (hpq : p ↔ q) : Finding.OnceIf q f l :=
  ⟨fun hq => h.trans (if_pos (hpq.2 hq)), fun hq => h.trans (if_neg (mt hpq.1 hq))⟩

theorem Finding.OnceIf.unique {p : Prop} {f : Finding} {l l' : List Finding}
    (h : Finding.OnceIf p f l) (h' : Finding.OnceIf p f l') : l = l' := by
  by_cases hp : p
  · rw [h.1 hp, h'.1 hp]
  · rw [h.2 hp, h'.2 hp]

/-- The places of a table, each with the codes of what can be doubtful there. -/
inductive RuleTable.HasPlace (table : RuleTable) : (path code : Text) → Prop
  /-- A symbol may have no candidates. -/
  | emptyCandidates {e : Text × List Text} (he : e ∈ table.entries) :
      HasPlace table e.1 "L_EMPTY_CANDIDATES".toList
  /-- A reference in a candidate may have an unknown symbol. -/
  | unknownSymbol {e : Text × List Text} {i : Nat} {rule : Text} (he : e ∈ table.entries)
      (hi : e.2[i]? = some rule) :
      HasPlace table (candidatePath e.1 i) "L_UNKNOWN_SYMBOL".toList
  /-- A reference in a candidate may have unknown modifiers. -/
  | unknownModifier {e : Text × List Text} {i : Nat} {rule : Text} (he : e ∈ table.entries)
      (hi : e.2[i]? = some rule) :
      HasPlace table (candidatePath e.1 i) "L_UNKNOWN_MODIFIER".toList
  /-- The start may not lead to a symbol. -/
  | unreachableSymbol {e : Text × List Text} (he : e ∈ table.entries) :
      HasPlace table e.1 "L_UNREACHABLE_SYMBOL".toList
  /-- A symbol may have no finite derivation. -/
  | nonTerminating {e : Text × List Text} (he : e ∈ table.entries) :
      HasPlace table e.1 "L_NON_TERMINATING".toList

/-- The places do not depend on the order of a table. -/
theorem RuleTable.HasPlace.of_perm {table other : RuleTable} {path code : Text}
    (h : table.HasPlace path code) (hperm : table.entries.Perm other.entries) :
    other.HasPlace path code := by
  cases h with
  | emptyCandidates he => exact .emptyCandidates (hperm.mem_iff.1 he)
  | unknownSymbol he hi => exact .unknownSymbol (hperm.mem_iff.1 he) hi
  | unknownModifier he hi => exact .unknownModifier (hperm.mem_iff.1 he) hi
  | unreachableSymbol he => exact .unreachableSymbol (hperm.mem_iff.1 he)
  | nonTerminating he => exact .nonTerminating (hperm.mem_iff.1 he)

/-- What a lint of a table lists. -/
structure Lists (table : RuleTable) (knows : Option (Text → Bool)) (origin file : Option Text)
    (findings : List Finding) : Prop where
  /-- By file, then path, then code. -/
  sorted : findings.Pairwise fun f g => f.key ≤ g.key
  /-- Each symbol without candidates. -/
  emptyCandidates : ∀ e ∈ table.entries, Finding.OnceIf (e.2 = [])
    (LintFault.finding file e.1 (.emptyCandidates e.1))
    (Finding.foundAt findings e.1 "L_EMPTY_CANDIDATES".toList)
  /-- For each candidate, the references in it whose symbols are unknown, one by one. -/
  unknownSymbols : ∀ e ∈ table.entries, ∀ i rule, e.2[i]? = some rule →
    Finding.foundAt findings (candidatePath e.1 i) "L_UNKNOWN_SYMBOL".toList
      = ((referencesIn rule).filter fun r => table.Unknown r.symbol).map fun r =>
          LintFault.finding file (candidatePath e.1 i) (.unknownSymbol r.raw)
  /-- For each candidate, the unknown modifiers of the references in it, one by one; none when it
  does not matter which are known. -/
  unknownModifiers : ∀ e ∈ table.entries, ∀ i rule, e.2[i]? = some rule →
    Finding.foundAt findings (candidatePath e.1 i) "L_UNKNOWN_MODIFIER".toList
      = (referencesIn rule).flatMap fun r =>
          (r.modifiers.filter fun m => knows.any fun known => !known m).map fun m =>
            LintFault.finding file (candidatePath e.1 i) (.unknownModifier m r.raw)
  /-- Each symbol that no chain of references leads to from the start, if that is a symbol. -/
  unreachable : ∀ e ∈ table.entries, Finding.OnceIf
    (∃ start, origin = some start ∧ table.contains start = true ∧ ¬ table.Leads start e.1)
    (LintFault.finding file e.1 (.unreachableSymbol (origin.getD [])))
    (Finding.foundAt findings e.1 "L_UNREACHABLE_SYMBOL".toList)
  /-- Each symbol without a finite derivation. -/
  nonTerminating : ∀ e ∈ table.entries, Finding.OnceIf (¬ table.HasDerivation e.1)
    (LintFault.finding file e.1 .nonTerminating)
    (Finding.foundAt findings e.1 "L_NON_TERMINATING".toList)
  /-- Nothing else. -/
  nothingElse : ∀ f ∈ findings,
    f.file = file ∧ ∃ path, f.path = some path ∧ table.HasPlace path f.code

variable {table other : RuleTable} {knows : Option (Text → Bool)} {origin file : Option Text}

/-! ## What is listed -/

theorem leads_iff_of_mem (hmap : table.WellFormed) {e : Text × List Text} (he : e ∈ table.entries)
    {start : Text} : table.Leads start e.1 ↔
      Text.lower e.1 ∈ reachableFrom (dependencies table) (Text.lower start) :=
  RuleTable.leads_iff hmap ((NameMap.contains_iff table e.1).2 ⟨e, he, rfl⟩)

/-- A lint finds nothing outside the places of the table. -/
theorem hasPlace_of_mem_lint {f : Finding} (hf : f ∈ lint table knows origin file) :
    f.file = file ∧ ∃ path, f.path = some path ∧ table.HasPlace path f.code := by
  rcases mem_lint_iff.1 hf with ⟨e, he, hf⟩ | ⟨start, -, hf⟩ | hf
  · rcases cases_of_mem_symbolFindings hf with ⟨-, rfl⟩ | ⟨i, rule, hi, r, -, fault, hfault, rfl⟩
    · exact ⟨rfl, e.1, rfl, .emptyCandidates he⟩
    · refine ⟨rfl, candidatePath e.1 i, rfl, ?_⟩
      rw [referenceFaults_eq, List.mem_append] at hfault
      rcases hfault with hfault | hfault
      · split at hfault
        · rw [List.mem_singleton.1 hfault]
          exact .unknownSymbol he hi
        · cases hfault
      · obtain ⟨m, -, rfl⟩ := List.mem_map.1 hfault
        exact .unknownModifier he hi
  · obtain ⟨-, e, he, -, rfl⟩ := mem_unreachableFindings_iff.1 hf
    exact ⟨rfl, e.1, rfl, .unreachableSymbol he⟩
  · obtain ⟨e, he, -, rfl⟩ := mem_nonTerminatingFindings_iff.1 hf
    exact ⟨rfl, e.1, rfl, .nonTerminating he⟩

/-- The references of a rule with unknown symbols. -/
theorem unknownSymbols_eq (table : RuleTable) (knows : Option (Text → Bool)) (rule : Text)
    (say : LintFault → Finding) :
    ((referencesIn rule).flatMap fun r =>
        ((referenceFaults table (boundNames table) knows r).filter
          fun fault => fault.code = (LintFault.unknownSymbol []).code).map say)
      = ((referencesIn rule).filter fun r => table.Unknown r.symbol).map
          fun r => say (.unknownSymbol r.raw) := by
  induction referencesIn rule with
  | nil => rfl
  | cons r refs ih =>
    rw [List.flatMap_cons, ih, filter_referenceFaults_unknownSymbol]
    by_cases h : table.Unknown r.symbol <;> simp [h]

/-- A lint of a table lists what is doubtful in it. -/
theorem lists_lint (hmap : table.WellFormed) (knows : Option (Text → Bool))
    (origin file : Option Text) :
    Lists table knows origin file (lint table knows origin file) where
  sorted := Finding.pairwise_sort _
  emptyCandidates := by
    intro e he
    rw [foundAt_lint]
    exact Finding.onceIf_of_eq (foundAt_doubts_emptyCandidates hmap he) Iff.rfl
  unknownSymbols := by
    intro e he i rule hi
    rw [foundAt_lint, ← unknownSymbols_eq table knows]
    exact foundAt_doubts_candidate (.unknownSymbol []) hmap trivial id he hi
  unknownModifiers := by
    intro e he i rule hi
    rw [foundAt_lint]
    refine (foundAt_doubts_candidate (.unknownModifier [] []) hmap trivial id he hi).trans ?_
    refine congrArg (List.flatMap · (referencesIn rule)) (funext fun r => ?_)
    rw [filter_referenceFaults_unknownModifier, List.map_map]
    rfl
  unreachable := by
    intro e he
    rw [foundAt_lint]
    cases origin with
    | none =>
      refine ⟨fun ⟨start, hstart, _⟩ => ?_, fun _ => foundAt_doubts_unreachableSymbol_none []⟩
      cases hstart
    | some start =>
      refine Finding.onceIf_of_eq (foundAt_doubts_unreachableSymbol hmap he start) ?_
      simp only [Option.some.injEq, exists_eq_left', leads_iff_of_mem hmap he]
  nonTerminating := by
    intro e he
    rw [foundAt_lint]
    exact Finding.onceIf_of_eq (foundAt_doubts_nonTerminating hmap he)
      (not_congr (RuleTable.hasDerivation_iff hmap).symm)
  nothingElse := fun f hf => hasPlace_of_mem_lint hf

/-! ## Nothing else can be listed -/

namespace Lists

variable {l l' : List Finding}

theorem foundAt_eq_nil (h : Lists table knows origin file l) {path code : Text}
    (hplace : ¬ table.HasPlace path code) : Finding.foundAt l path code = [] := by
  refine List.filter_eq_nil_iff.2 fun f hf hfound => hplace ?_
  obtain ⟨hpath, rfl⟩ := of_decide_eq_true hfound
  obtain ⟨-, place, hplace, hin⟩ := h.nothingElse f hf
  rw [hpath] at hplace
  exact Option.some.inj hplace ▸ hin

/-- Two such lists have the same findings of each code at each place. -/
theorem foundAt_eq (h : Lists table knows origin file l) (h' : Lists table knows origin file l')
    (path code : Text) : Finding.foundAt l path code = Finding.foundAt l' path code := by
  by_cases hplace : table.HasPlace path code
  · cases hplace with
    | emptyCandidates he => exact (h.emptyCandidates _ he).unique (h'.emptyCandidates _ he)
    | unknownSymbol he hi =>
      exact (h.unknownSymbols _ he _ _ hi).trans (h'.unknownSymbols _ he _ _ hi).symm
    | unknownModifier he hi =>
      exact (h.unknownModifiers _ he _ _ hi).trans (h'.unknownModifiers _ he _ _ hi).symm
    | unreachableSymbol he => exact (h.unreachable _ he).unique (h'.unreachable _ he)
    | nonTerminating he => exact (h.nonTerminating _ he).unique (h'.nonTerminating _ he)
  · rw [h.foundAt_eq_nil hplace, h'.foundAt_eq_nil hplace]

/-- The findings with one key are those of one code at one place, as they all are of one file. -/
theorem filter_key_eq (h : Lists table knows origin file l) (key : Text ×ₗ Text ×ₗ Text) :
    l.filter (fun f => f.key = key)
      = if file.getD [] = (ofLex key).1 then
          Finding.foundAt l (ofLex (ofLex key).2).1 (ofLex (ofLex key).2).2
        else [] := by
  have hkey : ∀ f ∈ l, f.key = key ↔ file.getD [] = (ofLex key).1 ∧
      (f.path = some (ofLex (ofLex key).2).1 ∧ f.code = (ofLex (ofLex key).2).2) := by
    intro f hf
    obtain ⟨hfile, path, hpath, -⟩ := h.nothingElse f hf
    simp only [Finding.key, hfile, hpath, Option.getD_some, Option.some.injEq]
    constructor
    · rintro rfl
      exact ⟨rfl, rfl, rfl⟩
    · rintro ⟨hfirst, hsecond, hthird⟩
      rw [hfirst, hsecond, hthird]
      rfl
  by_cases hfile : file.getD [] = (ofLex key).1
  · rw [if_pos hfile]
    refine List.filter_congr fun f hf => decide_eq_decide.2 ?_
    rw [hkey f hf, and_iff_right hfile]
  · rw [if_neg hfile]
    refine List.filter_eq_nil_iff.2 fun f hf hfound => hfile ?_
    exact ((hkey f hf).1 (of_decide_eq_true hfound)).1

/-- Only one list holds this. -/
theorem unique (h : Lists table knows origin file l) (h' : Lists table knows origin file l') :
    l = l' := by
  refine Finding.eq_of_filter_key_eq h.sorted h'.sorted fun key => ?_
  rw [h.filter_key_eq, h'.filter_key_eq, h.foundAt_eq h']

/-- Tables with the same entries have the same listing, in whatever order the entries stand. -/
theorem of_perm (h : Lists table knows origin file l) (hmap : table.WellFormed)
    (hperm : table.entries.Perm other.entries) : Lists other knows origin file l := by
  have hmem : ∀ e, e ∈ other.entries ↔ e ∈ table.entries := fun e => hperm.symm.mem_iff
  have hget := hmap.get?_eq_of_perm hperm
  have hcontains : ∀ name, other.contains name = table.contains name := by
    intro name
    rw [NameMap.contains_eq_isSome, NameMap.contains_eq_isSome, hget]
  have hunknown : ∀ name, other.Unknown name ↔ table.Unknown name := by
    intro name
    simp only [RuleTable.Unknown, RuleTable.Binds, hcontains, hmem]
  have hleads : ∀ start name, other.Leads start name ↔ table.Leads start name := fun _ _ =>
    ⟨.of_get?_eq fun name => (hget name).symm, .of_get?_eq hget⟩
  have hderives : ∀ name, other.HasDerivation name ↔ table.HasDerivation name := fun _ =>
    ⟨.of_get?_eq fun name => (hget name).symm, .of_get?_eq hget⟩
  exact
    { sorted := h.sorted
      emptyCandidates := fun e he => h.emptyCandidates e ((hmem e).1 he)
      unknownSymbols := by
        intro e he i rule hi
        simpa only [hunknown] using h.unknownSymbols e ((hmem e).1 he) i rule hi
      unknownModifiers := fun e he => h.unknownModifiers e ((hmem e).1 he)
      unreachable := by
        intro e he
        simpa only [hcontains, hleads] using h.unreachable e ((hmem e).1 he)
      nonTerminating := by
        intro e he
        simpa only [hderives] using h.nonTerminating e ((hmem e).1 he)
      nothingElse := by
        intro f hf
        obtain ⟨hfile, path, hpath, hplace⟩ := h.nothingElse f hf
        exact ⟨hfile, path, hpath, hplace.of_perm hperm⟩ }

end Lists

/-! ## Lints of whole tables -/

/-- A lint of a table lists every doubt about it once, in order, and nothing else. The symbols that
the start leads to are also found by every search with a list of names that wait, none of which goes
on for ever; and those that can finish by passes over the table, of which no more are needed than
there are symbols. -/
theorem lint_lists_exactly (table : RuleTable) (hmap : table.WellFormed)
    (knows : Option (Text → Bool)) (origin file : Option Text) :
    let graph := dependencies table
    Lists table knows origin file (lint table knows origin file) ∧
    (WellFounded (fun s' s => Search.Step graph s s') ∧
      ∀ start, table.contains start = true →
        (∃ seen, Relation.ReflTransGen (Search.Step graph) ⟨[Text.lower start], []⟩ ⟨[], seen⟩) ∧
        ∀ seen, Relation.ReflTransGen (Search.Step graph) ⟨[Text.lower start], []⟩ ⟨[], seen⟩ →
          ∀ e ∈ table.entries, Text.lower e.1 ∈ seen ↔ table.Leads start e.1) ∧
    (∃ n ≤ table.size, passes graph (n + 1) = passes graph n) ∧
    ∀ n, passes graph (n + 1) = passes graph n →
      ∀ e ∈ table.entries, Text.lower e.1 ∈ passes graph n ↔ table.HasDerivation e.1 := by
  intro graph
  refine ⟨lists_lint hmap knows origin file,
    ⟨Search.wellFounded_step graph, fun start hin => ⟨Search.exists_end graph _, ?_⟩⟩,
    ⟨graph.length, ?_, passes_length_succ graph⟩, ?_⟩
  · intro seen hsearch e he
    have hsound := (Search.Sound.begin hin).steps hsearch
    exact (hsound.mem_seen_iff rfl).trans (leads_iff_of_mem hmap he).symm
  · exact (List.length_map _).le
  · intro n hn e he
    exact (mem_passes_iff hn).trans (RuleTable.hasDerivation_iff hmap).symm

/-- A tale of a hero without a name, of nobody, and of an orphan. -/
def slipTale : RuleTable :=
  .ofList [("tale".toList, ["#[hero:#name.loud#]Hero.soft.soft# #nobody#".toList]),
    ("name".toList, []),
    ("Orphan".toList, ["#orphan#".toList])]

/-- The places of its slips, with their codes, when only one modifier is known. -/
def slips : List (Text ×ₗ Text ×ₗ Text) :=
  let places : List (String × String) :=
    [("Orphan", "L_NON_TERMINATING"), ("Orphan", "L_UNREACHABLE_SYMBOL"),
      ("name", "L_EMPTY_CANDIDATES"), ("tale[0]", "L_UNKNOWN_MODIFIER"),
      ("tale[0]", "L_UNKNOWN_MODIFIER"), ("tale[0]", "L_UNKNOWN_SYMBOL")]
  places.map fun p => toLex ([], toLex (p.1.toList, p.2.toList))

theorem lint_slipTale : (lint slipTale (some (· = "loud".toList)) (some "Tale".toList) none).map
    Finding.key = slips := by
  have hperm : ((lint slipTale (some (· = "loud".toList)) (some "Tale".toList) none).map
      Finding.key).Perm slips :=
    ((Finding.sort_perm _).map Finding.key).trans (by decide +kernel)
  have hsorted : slips.Pairwise (· ≤ ·) := by decide +kernel
  exact hperm.eq_of_pairwise (fun _ _ _ _ => le_antisymm)
    (List.pairwise_map.2 (Finding.pairwise_sort _)) hsorted

/-- The tale has these slips, however its start is spelled. -/
theorem slipTale_lists :
    let graph := dependencies slipTale
    let findings := lint slipTale (some (· = "loud".toList)) (some "Tale".toList) none
    slipTale.WellFormed ∧
    (findings.map Finding.key = slips ∧
      Lists slipTale (some (· = "loud".toList)) (some "Tale".toList) none findings) ∧
    (∃ seen, Relation.ReflTransGen (Search.Step graph) ⟨["tale".toList], []⟩ ⟨[], seen⟩ ∧
      "name".toList ∈ seen ∧ "orphan".toList ∉ seen) ∧
    ∃ n ≤ 3, passes graph (n + 1) = passes graph n ∧
      "name".toList ∈ passes graph n ∧ "orphan".toList ∉ passes graph n := by
  intro graph findings
  have hmap : slipTale.WellFormed := NameMap.wellFormed_ofList _
  obtain ⟨hlists, ⟨-, hsearch⟩, ⟨n, hle, hfixed⟩, hpasses⟩ := lint_lists_exactly slipTale hmap
    (some (· = "loud".toList)) (some "Tale".toList) none
  have hlower : Text.lower "Tale".toList = "tale".toList ∧ Text.lower "name".toList = "name".toList ∧
      Text.lower "Orphan".toList = "orphan".toList := by decide +kernel
  have hname : ("name".toList, []) ∈ slipTale.entries := by decide +kernel
  have horphan : ("Orphan".toList, ["#orphan#".toList]) ∈ slipTale.entries := by decide +kernel
  have hleads : slipTale.Leads "Tale".toList "name".toList ∧
      ¬ slipTale.Leads "Tale".toList "Orphan".toList := by
    rw [leads_iff_of_mem hmap hname, leads_iff_of_mem hmap horphan]
    decide +kernel
  have hfinish : slipTale.HasDerivation "name".toList ∧
      ¬ slipTale.HasDerivation "Orphan".toList := by
    rw [RuleTable.hasDerivation_iff hmap, RuleTable.hasDerivation_iff hmap]
    decide +kernel
  obtain ⟨⟨seen, hseen⟩, hmem⟩ := hsearch "Tale".toList (by decide +kernel)
  have hseenName := hmem seen hseen _ hname
  have hseenOrphan := hmem seen hseen _ horphan
  have hpassName := hpasses n hfixed _ hname
  have hpassOrphan := hpasses n hfixed _ horphan
  simp only [hlower] at hseen hseenName hseenOrphan hpassName hpassOrphan
  exact ⟨hmap, ⟨lint_slipTale, hlists⟩,
    ⟨seen, hseen, hseenName.2 hleads.1, mt hseenOrphan.1 hleads.2⟩,
    n, hle, hfixed, hpassName.2 hfinish.1, mt hpassOrphan.1 hfinish.2⟩

/-- The order in which the symbols of a table stand does not matter to a lint. -/
theorem lint_eq_of_perm {table other : RuleTable} (hmap : table.WellFormed)
    (hperm : table.entries.Perm other.entries) (knows : Option (Text → Bool))
    (origin file : Option Text) :
    lint table knows origin file = lint other knows origin file :=
  ((lists_lint hmap knows origin file).of_perm hmap hperm).unique
    (lists_lint (hmap.of_perm hperm) knows origin file)

/-- The tale with its symbols in reverse order. -/
def slipTaleReversed : RuleTable := ⟨slipTale.entries.reverse⟩

/-- The tale has the same slips when its symbols stand in reverse order. -/
theorem slipTaleReversed_lint :
    let findings := lint slipTaleReversed (some (· = "loud".toList)) (some "Tale".toList) none
    (slipTale.WellFormed ∧ slipTale.entries.Perm slipTaleReversed.entries) ∧
    slipTaleReversed.names = ["Orphan".toList, "name".toList, "tale".toList] ∧
    lint slipTale (some (· = "loud".toList)) (some "Tale".toList) none = findings ∧
    findings.map Finding.key = slips := by
  intro findings
  have hmap : slipTale.WellFormed := NameMap.wellFormed_ofList _
  have hperm : slipTale.entries.Perm slipTaleReversed.entries :=
    (List.reverse_perm slipTale.entries).symm
  have hsame := lint_eq_of_perm hmap hperm (some (· = "loud".toList)) (some "Tale".toList) none
  refine ⟨⟨hmap, hperm⟩, by decide +kernel, hsame, ?_⟩
  rw [← lint_slipTale, hsame]

end TextGrammar
