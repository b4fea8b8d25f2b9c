import TextGrammar.Proofs.Finding.Order
import TextGrammar.Proofs.Lint.Derivation
import TextGrammar.Proofs.NameMap.Entries
import Mathlib.Data.List.Nodup
import Mathlib.Data.List.Range

/-!
# What is found at which place

A finding of a lint is filed under a place and a code. The place is a symbol, or a candidate of a
symbol told by its number; no two candidates of a table have one place. So the findings of one code
at one place come from one symbol or one candidate, in the order of the references there, and
sorting does not change that order.

## Main definitions

* `Finding.foundAt` — the findings of one code at one place.
* `RuleTable.Unknown` — a name that a reference should not have.
* `doubts` — what is doubtful in a table, in the order in which it is found.

## Main results

* `candidatePath_inj` — different candidates have different places.
* `foundAt_lint` — sorting changes nothing at any place.
* `foundAt_doubts_emptyCandidates`, `foundAt_doubts_candidate`, `foundAt_doubts_unreachableSymbol`,
  `foundAt_doubts_nonTerminating` — what is found at a place.
-/

namespace TextGrammar

/-! ## Places -/

theorem decimalText_inj {m n : Nat} (h : decimalText m = decimalText n) : m = n := by
  have hdigits := congrArg (fun digits => Nat.ofDigitChars 10 digits 0) h
  simpa only [decimalText, Nat.ofDigitChars_toDigits (by decide : 1 < 10) le_rfl] using hdigits

theorem bracket_not_mem_decimalText (n : Nat) : '[' ∉ decimalText n := by
  intro h
  have hdigit := Nat.isDigit_of_mem_toDigits (by decide : 0 < 10) le_rfl h
  exact absurd hdigit (by decide)

/-- Texts that go on with a bracket, and then without one, are cut at it in one way. -/
theorem append_bracket_inj {s t u v : Text} (hu : '[' ∉ u) (hv : '[' ∉ v)
    (h : s ++ '[' :: u = t ++ '[' :: v) : s = t ∧ u = v := by
  rcases List.append_eq_append_iff.1 h with ⟨w, rfl, hw⟩ | ⟨w, rfl, hw⟩
  · cases w with
    | nil => simpa using hw
    | cons c w =>
      have hmem : '[' ∈ u := by
        rw [(List.cons_eq_cons.1 hw).2]
        simp
      exact absurd hmem hu
  · cases w with
    | nil => simpa using hw.symm
    | cons c w =>
      have hmem : '[' ∈ v := by
        rw [(List.cons_eq_cons.1 hw).2]
        simp
      exact absurd hmem hv

/-- Different candidates have different places. -/
theorem candidatePath_inj {s t : Text} {i j : Nat} (h : candidatePath s i = candidatePath t j) :
    s = t ∧ i = j := by
  have hclosed : ∀ n, '[' ∉ decimalText n ++ [']'] := by
    intro n hn
    rcases List.mem_append.1 hn with hn | hn
    · exact bracket_not_mem_decimalText n hn
    · exact absurd (List.mem_singleton.1 hn) (by decide)
  rw [candidatePath, candidatePath, List.append_assoc, List.append_assoc] at h
  obtain ⟨hsymbol, hnumber⟩ := append_bracket_inj (hclosed i) (hclosed j) h
  exact ⟨hsymbol, decimalText_inj (List.append_cancel_right hnumber)⟩

namespace Finding

/-- The findings of one code at one place. -/
def foundAt (findings : List Finding) (path code : Text) : List Finding :=
  findings.filter fun f => f.path = some path ∧ f.code = code

@[simp] theorem foundAt_nil (path code : Text) : foundAt [] path code = [] := rfl

@[simp] theorem foundAt_append (l l' : List Finding) (path code : Text) :
    foundAt (l ++ l') path code = foundAt l path code ++ foundAt l' path code :=
  List.filter_append l l'

theorem foundAt_flatMap {α : Type} (l : List α) (f : α → List Finding) (path code : Text) :
    foundAt (l.flatMap f) path code = l.flatMap fun a => foundAt (f a) path code :=
  List.filter_flatMap

/-- The findings for faults at one place. -/
theorem foundAt_map_finding (file : Option Text) (place : Text) (faults : List LintFault)
    (path code : Text) :
    foundAt (faults.map (LintFault.finding file place)) path code
      = if place = path then
          (faults.filter fun fault => fault.code = code).map (LintFault.finding file place)
        else [] := by
  rw [foundAt, List.filter_map]
  by_cases hplace : place = path
  · rw [if_pos hplace]
    refine congrArg (List.map _) (List.filter_congr fun fault _ => decide_eq_decide.2 ?_)
    simp [LintFault.finding, hplace]
  · simp [Function.comp_def, LintFault.finding, hplace]

end Finding

/-! ## Unknown names -/

namespace RuleTable

/-- Some candidate of the table binds the name to a rule, at any depth. -/
def Binds (table : RuleTable) (name : Text) : Prop :=
  ∃ e ∈ table.entries, ∃ rule ∈ e.2, ∃ b ∈ bindingsIn rule,
    b.rule.isSome = true ∧ Text.lower b.name = Text.lower name

/-- The name is not empty, and neither a symbol of the table nor bound to a rule. -/
def Unknown (table : RuleTable) (name : Text) : Prop :=
  name ≠ [] ∧ ¬ table.contains name = true ∧ ¬ table.Binds name

theorem lower_mem_boundNames_iff (table : RuleTable) (name : Text) :
    Text.lower name ∈ boundNames table ↔ table.Binds name := by
  simp only [boundNames, NameMap.values, List.mem_filterMap, List.mem_flatMap, List.mem_map]
  constructor
  · rintro ⟨b, ⟨_, ⟨e, he, rfl⟩, rule, hrule, hb⟩, hname⟩
    obtain ⟨r, hr, hname⟩ := Option.map_eq_some_iff.1 hname
    exact ⟨e, he, rule, hrule, b, hb, by simp [hr], hname⟩
  · rintro ⟨e, he, rule, hrule, b, hb, hsome, hname⟩
    obtain ⟨r, hr⟩ := Option.isSome_iff_exists.1 hsome
    exact ⟨b, ⟨_, ⟨e, he, rfl⟩, rule, hrule, hb⟩, by simp [hr, hname]⟩

theorem isUnknownSymbol_iff (table : RuleTable) (name : Text) :
    isUnknownSymbol table (boundNames table) name = true ↔ table.Unknown name := by
  rw [Unknown, ← lower_mem_boundNames_iff]
  simp [isUnknownSymbol, and_comm, and_assoc]

instance (table : RuleTable) (name : Text) : Decidable (table.Unknown name) :=
  decidable_of_iff _ (isUnknownSymbol_iff table name)

end RuleTable

/-! ## Faults of references -/

namespace LintFault

/-- Two faults of one kind. -/
def SameKind : LintFault → LintFault → Prop
  | emptyCandidates _, emptyCandidates _ => True
  | unknownSymbol _, unknownSymbol _ => True
  | unknownModifier .., unknownModifier .. => True
  | unreachableSymbol _, unreachableSymbol _ => True
  | nonTerminating, nonTerminating => True
  | _, _ => False

/-- Each kind of fault has a code of its own. -/
theorem code_eq_code_iff (a b : LintFault) : a.code = b.code ↔ a.SameKind b := by
  cases a <;> cases b <;>
    first
    | exact iff_of_false (fun h => absurd (String.toList_inj.1 h) (by decide)) id
    | exact iff_of_true rfl trivial

end LintFault

section References

variable (table : RuleTable) (knows : Option (Text → Bool)) (r : Reference)

/-- The faults of a reference: its symbol is unknown, or some modifiers are. -/
theorem referenceFaults_eq : referenceFaults table (boundNames table) knows r
    = (if table.Unknown r.symbol then [.unknownSymbol r.raw] else [])
      ++ (r.modifiers.filter fun m => knows.any (!· m)).map fun m => .unknownModifier m r.raw := by
  have hsymbol : isUnknownSymbol table (boundNames table) r.symbol = true ↔ table.Unknown r.symbol :=
    table.isUnknownSymbol_iff r.symbol
  unfold referenceFaults
  cases knows <;> simp [hsymbol]

theorem filter_referenceFaults_unknownSymbol :
    (referenceFaults table (boundNames table) knows r).filter
        (fun fault => fault.code = (LintFault.unknownSymbol []).code)
      = if table.Unknown r.symbol then [.unknownSymbol r.raw] else [] := by
  rw [referenceFaults_eq, List.filter_append, List.filter_map]
  by_cases h : table.Unknown r.symbol <;>
    simp [h, LintFault.code_eq_code_iff, LintFault.SameKind, Function.comp_def]

theorem filter_referenceFaults_unknownModifier :
    (referenceFaults table (boundNames table) knows r).filter
        (fun fault => fault.code = (LintFault.unknownModifier [] []).code)
      = (r.modifiers.filter fun m => knows.any (!· m)).map fun m => .unknownModifier m r.raw := by
  rw [referenceFaults_eq, List.filter_append, List.filter_map]
  by_cases h : table.Unknown r.symbol <;>
    simp [h, LintFault.code_eq_code_iff, LintFault.SameKind, Function.comp_def]

end References

/-! ## What is found in the candidates of one symbol -/

section Symbols

variable {table : RuleTable} {knows : Option (Text → Bool)} {file : Option Text} {path code : Text}

/-- A symbol that has no candidates is found at its own place. -/
theorem foundAt_symbolFindings_emptyCandidates (symbol : Text) (candidates : List Text) :
    Finding.foundAt (symbolFindings table (boundNames table) knows file symbol candidates) path
        (LintFault.emptyCandidates []).code
      = if symbol = path ∧ candidates = [] then
          [LintFault.finding file symbol (.emptyCandidates symbol)]
        else [] := by
  have hrefs : ∀ r : Reference, (referenceFaults table (boundNames table) knows r).filter
      (fun fault => fault.code = (LintFault.emptyCandidates []).code) = [] := by
    intro r
    refine List.filter_eq_nil_iff.2 fun fault hfault => ?_
    rw [referenceFaults_eq, List.mem_append] at hfault
    rw [decide_eq_true_iff, LintFault.code_eq_code_iff]
    rcases hfault with hfault | hfault
    · split at hfault
      · rw [List.mem_singleton.1 hfault]
        exact id
      · cases hfault
    · obtain ⟨m, -, rfl⟩ := List.mem_map.1 hfault
      exact id
  have hself : Finding.foundAt [LintFault.finding file symbol (.emptyCandidates symbol)] path
      (LintFault.emptyCandidates []).code
        = if symbol = path then [LintFault.finding file symbol (.emptyCandidates symbol)] else [] :=
    Finding.foundAt_map_finding file symbol [.emptyCandidates symbol] path _
  unfold symbolFindings
  simp only [Finding.foundAt_append, Finding.foundAt_flatMap, Finding.foundAt_map_finding, hrefs]
  by_cases hnil : candidates = [] <;> simp [hnil, hself]

/-- What is found at any other place or under any other code comes from the references of a
candidate. -/
theorem foundAt_symbolFindings_of_ne (hcode : code ≠ (LintFault.emptyCandidates []).code)
    (symbol : Text) (candidates : List Text) :
    Finding.foundAt (symbolFindings table (boundNames table) knows file symbol candidates) path code
      = candidates.zipIdx.flatMap fun c => if candidatePath symbol c.2 = path then
          (referencesIn c.1).flatMap fun r =>
            ((referenceFaults table (boundNames table) knows r).filter
              fun fault => fault.code = code).map (LintFault.finding file path)
        else [] := by
  have hself : Finding.foundAt (if candidates.isEmpty then
      [LintFault.finding file symbol (.emptyCandidates symbol)] else []) path code = [] := by
    refine List.filter_eq_nil_iff.2 fun f hf => ?_
    split at hf
    · rw [List.mem_singleton.1 hf, decide_eq_true_iff]
      exact fun h => hcode h.2.symm
    · cases hf
  unfold symbolFindings
  rw [Finding.foundAt_append, hself, List.nil_append, Finding.foundAt_flatMap]
  refine congrArg (List.flatMap · candidates.zipIdx) (funext fun c => ?_)
  rw [Finding.foundAt_flatMap]
  simp only [Finding.foundAt_map_finding]
  by_cases hplace : candidatePath symbol c.2 = path <;> simp [hplace]

end Symbols

/-! ## What is found in a whole table -/

/-- What is said of one element of a list only is what is said of the whole list. -/
theorem flatMap_eq_of_mem {α β : Type} {l : List α} {f : α → List β} {a : α} (ha : a ∈ l)
    (hl : l.Nodup) (h : ∀ b ∈ l, b ≠ a → f b = []) : l.flatMap f = f a := by
  obtain ⟨before, after, rfl⟩ := List.append_of_mem ha
  have hnil : ∀ part : List α, part ⊆ before ++ a :: after → a ∉ part → part.flatMap f = [] :=
    fun part hpart ha' => List.flatMap_eq_nil_iff.2 fun b hb =>
      h b (hpart hb) fun heq => ha' (heq ▸ hb)
  have hnodup := List.nodup_middle.1 hl
  obtain ⟨hbefore, hafter⟩ := not_or.1 (List.mem_append.not.1 (List.nodup_cons.1 hnodup).1)
  rw [List.flatMap_append, List.flatMap_cons, hnil before (by simp) hbefore,
    hnil after (by simp) hafter]
  simp

theorem nodup_zipIdx {α : Type} (l : List α) : l.zipIdx.Nodup := by
  refine List.Nodup.of_map Prod.snd ?_
  rw [List.zipIdx_map_snd]
  exact List.nodup_range'

/-- What is doubtful in a table, in the order in which it is found. -/
def doubts (table : RuleTable) (knows : Option (Text → Bool)) (origin file : Option Text) :
    List Finding :=
  table.entries.flatMap (fun e => symbolFindings table (boundNames table) knows file e.1 e.2)
    ++ origin.elim [] (unreachableFindings table file) ++ nonTerminatingFindings table file

theorem lint_eq_sort_doubts (table : RuleTable) (knows : Option (Text → Bool))
    (origin file : Option Text) :
    lint table knows origin file = Finding.sort (doubts table knows origin file) := rfl

/-- Every doubt is a fault at a place of the file. -/
theorem exists_fault_of_mem_doubts {table : RuleTable} {knows : Option (Text → Bool)}
    {origin file : Option Text} {f : Finding} (h : f ∈ doubts table knows origin file) :
    ∃ path fault, f = LintFault.finding file path fault := by
  rcases mem_lint_iff.1 ((Finding.sort_perm _).mem_iff.2 h) with ⟨e, -, he⟩ | ⟨start, -, he⟩ | he
  · obtain ⟨path, fault, -, rfl⟩ := exists_fault_of_mem_symbolFindings he
    exact ⟨path, fault, rfl⟩
  · obtain ⟨-, e, -, -, rfl⟩ := mem_unreachableFindings_iff.1 he
    exact ⟨_, _, rfl⟩
  · obtain ⟨e, -, -, rfl⟩ := mem_nonTerminatingFindings_iff.1 he
    exact ⟨_, _, rfl⟩

/-- Sorting changes nothing at any place. -/
theorem foundAt_lint (table : RuleTable) (knows : Option (Text → Bool)) (origin file : Option Text)
    (path code : Text) : Finding.foundAt (lint table knows origin file) path code
      = Finding.foundAt (doubts table knows origin file) path code := by
  rw [lint_eq_sort_doubts]
  refine Finding.filter_sort fun f hf g hg hpf hpg => ?_
  obtain ⟨_, _, rfl⟩ := exists_fault_of_mem_doubts hf
  obtain ⟨_, _, rfl⟩ := exists_fault_of_mem_doubts hg
  rw [decide_eq_true_iff] at hpf hpg
  rw [Finding.key, Finding.key, hpf.1, hpg.1, hpf.2, hpg.2]
  rfl

section Doubts

variable {table : RuleTable} {knows : Option (Text → Bool)} {origin file : Option Text}
  {path : Text} {fault : LintFault}

/-- Findings of other kinds are not found under the code of a fault. -/
theorem foundAt_eq_nil {findings : List Finding}
    (h : ∀ f ∈ findings, ∃ file place other, f = LintFault.finding file place other ∧
      ¬ other.SameKind fault) : Finding.foundAt findings path fault.code = [] := by
  refine List.filter_eq_nil_iff.2 fun f hf => ?_
  obtain ⟨file, place, other, rfl, hother⟩ := h f hf
  rw [decide_eq_true_iff]
  exact fun hfound => hother ((LintFault.code_eq_code_iff other fault).1 hfound.2)

theorem foundAt_symbolFindings_eq_nil (hfault : ¬ fault.IsLocal) :
    Finding.foundAt (table.entries.flatMap fun e =>
      symbolFindings table (boundNames table) knows file e.1 e.2) path fault.code = [] := by
  refine foundAt_eq_nil fun f hf => ?_
  obtain ⟨e, -, hf⟩ := List.mem_flatMap.1 hf
  obtain ⟨place, other, hlocal, rfl⟩ := exists_fault_of_mem_symbolFindings hf
  refine ⟨file, place, other, rfl, fun hkind => hfault ?_⟩
  cases fault <;> cases other <;> first | exact hlocal | exact hkind.elim

theorem foundAt_unreachableFindings_eq_nil
    (hfault : ∀ start, ¬ (LintFault.unreachableSymbol start).SameKind fault) :
    Finding.foundAt (origin.elim [] (unreachableFindings table file)) path fault.code = [] := by
  cases origin with
  | none => rfl
  | some start =>
    refine foundAt_eq_nil fun f hf => ?_
    obtain ⟨-, e, -, -, rfl⟩ := mem_unreachableFindings_iff.1 hf
    exact ⟨file, e.1, _, rfl, hfault start⟩

theorem foundAt_nonTerminatingFindings_eq_nil
    (hfault : ¬ LintFault.nonTerminating.SameKind fault) :
    Finding.foundAt (nonTerminatingFindings table file) path fault.code = [] := by
  refine foundAt_eq_nil fun f hf => ?_
  obtain ⟨e, -, -, rfl⟩ := mem_nonTerminatingFindings_iff.1 hf
  exact ⟨file, e.1, _, rfl, hfault⟩

/-- The faults of one symbol or reference come from the candidates. -/
theorem foundAt_doubts_of_isLocal (hfault : fault.IsLocal) :
    Finding.foundAt (doubts table knows origin file) path fault.code
      = table.entries.flatMap fun e => Finding.foundAt
          (symbolFindings table (boundNames table) knows file e.1 e.2) path fault.code := by
  have hunreachable : ∀ start, ¬ (LintFault.unreachableSymbol start).SameKind fault := by
    intro start hkind
    cases fault <;> first | exact hkind | exact hfault
  have hnonTerminating : ¬ LintFault.nonTerminating.SameKind fault := by
    intro hkind
    cases fault <;> first | exact hkind | exact hfault
  rw [doubts, Finding.foundAt_append, Finding.foundAt_append,
    foundAt_unreachableFindings_eq_nil hunreachable,
    foundAt_nonTerminatingFindings_eq_nil hnonTerminating,
    List.append_nil, List.append_nil, Finding.foundAt_flatMap]

/-- What is found under the code of a symbol without candidates. -/
theorem foundAt_doubts_emptyCandidates (hmap : table.WellFormed) {e : Text × List Text}
    (he : e ∈ table.entries) : Finding.foundAt (doubts table knows origin file) e.1
        (LintFault.emptyCandidates []).code
      = if e.2 = [] then [LintFault.finding file e.1 (.emptyCandidates e.1)] else [] := by
  rw [foundAt_doubts_of_isLocal (by trivial), flatMap_eq_of_mem he hmap.nodup_entries]
  · simp [foundAt_symbolFindings_emptyCandidates]
  · intro other hother hne
    have hname : ¬ other.1 = e.1 := fun heq => hne (hmap.eq_of_fst_eq hother he heq)
    simp [foundAt_symbolFindings_emptyCandidates, hname]

/-- What is found under the code of a fault of references, at the place of a candidate. -/
theorem foundAt_doubts_candidate (fault : LintFault) (hmap : table.WellFormed)
    (hfault : fault.IsLocal) (hne : ¬ fault.SameKind (.emptyCandidates [])) {e : Text × List Text} (he : e ∈ table.entries)
    {i : Nat} {rule : Text} (hi : e.2[i]? = some rule) :
    Finding.foundAt (doubts table knows origin file) (candidatePath e.1 i) fault.code
      = (referencesIn rule).flatMap fun r =>
          ((referenceFaults table (boundNames table) knows r).filter
            fun other => other.code = fault.code).map
              (LintFault.finding file (candidatePath e.1 i)) := by
  have hcode : fault.code ≠ (LintFault.emptyCandidates []).code :=
    fun h => hne ((LintFault.code_eq_code_iff _ _).1 h)
  rw [foundAt_doubts_of_isLocal hfault, flatMap_eq_of_mem he hmap.nodup_entries]
  · rw [foundAt_symbolFindings_of_ne hcode, flatMap_eq_of_mem
      (List.mk_mem_zipIdx_iff_getElem?.2 hi) (nodup_zipIdx e.2), if_pos rfl]
    -- A candidate with another number has another place.
    intro c hc hother
    refine if_neg fun hplace => hother ?_
    obtain ⟨-, hnumber⟩ := candidatePath_inj hplace
    have hrule := List.mem_zipIdx_iff_getElem?.1 hc
    rw [hnumber, hi] at hrule
    exact Prod.ext (Option.some.inj hrule).symm hnumber
  · -- A candidate of another symbol has another place.
    intro other hother hne
    rw [foundAt_symbolFindings_of_ne hcode]
    refine List.flatMap_eq_nil_iff.2 fun c _ => if_neg fun hplace => hne ?_
    exact hmap.eq_of_fst_eq hother he (candidatePath_inj hplace).1

/-- What is said of the symbols that are not among some names is said at the place of each. -/
theorem foundAt_map_filter_dependencies (hmap : table.WellFormed) (names : List Text)
    {e : Text × List Text} (he : e ∈ table.entries) :
    Finding.foundAt (((dependencies table).filter fun d => !names.contains d.name).map
        fun d => LintFault.finding file d.symbol fault) e.1 fault.code
      = if Text.lower e.1 ∉ names then [LintFault.finding file e.1 fault] else [] := by
  have hplace : ((fun f : Finding => decide (f.path = some e.1 ∧ f.code = fault.code)) ∘
      fun x : Text × List Text => LintFault.finding file x.1 fault) = fun x => decide (x.1 = e.1) := by
    funext x
    simp [LintFault.finding]
  rw [map_filter_dependencies_eq table names fun symbol => LintFault.finding file symbol fault,
    Finding.foundAt, List.filter_map, hplace, List.filter_comm, hmap.filter_fst_eq he]
  by_cases hn : Text.lower e.1 ∈ names <;> simp [hn]

/-- What is found under the code of a symbol that the start does not lead to. -/
theorem foundAt_doubts_unreachableSymbol (hmap : table.WellFormed) {e : Text × List Text}
    (he : e ∈ table.entries) (start : Text) :
    Finding.foundAt (doubts table knows (some start) file) e.1
        (LintFault.unreachableSymbol start).code
      = if table.contains start = true ∧
          Text.lower e.1 ∉ reachableFrom (dependencies table) (Text.lower start) then
            [LintFault.finding file e.1 (.unreachableSymbol start)]
        else [] := by
  rw [doubts, Finding.foundAt_append, Finding.foundAt_append, foundAt_symbolFindings_eq_nil id,
    foundAt_nonTerminatingFindings_eq_nil id, List.nil_append, List.append_nil, Option.elim_some,
    unreachableFindings]
  by_cases hin : table.contains start = true
  · rw [if_pos hin]
    simpa only [hin, true_and] using foundAt_map_filter_dependencies hmap _ he
  · simp [hin]

/-- Without a start nothing is found under the code of a symbol that a start does not lead to. -/
theorem foundAt_doubts_unreachableSymbol_none (start : Text) :
    Finding.foundAt (doubts table knows none file) path (LintFault.unreachableSymbol start).code
      = [] := by
  rw [doubts, Finding.foundAt_append, Finding.foundAt_append, foundAt_symbolFindings_eq_nil id,
    foundAt_nonTerminatingFindings_eq_nil id]
  rfl

/-- What is found under the code of a symbol that can never finish. -/
theorem foundAt_doubts_nonTerminating (hmap : table.WellFormed) {e : Text × List Text}
    (he : e ∈ table.entries) :
    Finding.foundAt (doubts table knows origin file) e.1 LintFault.nonTerminating.code
      = if Text.lower e.1 ∉ finishing (dependencies table) then
          [LintFault.finding file e.1 .nonTerminating]
        else [] := by
  rw [doubts, Finding.foundAt_append, Finding.foundAt_append, foundAt_symbolFindings_eq_nil id,
    foundAt_unreachableFindings_eq_nil fun _ => id, List.nil_append, List.nil_append]
  exact foundAt_map_filter_dependencies hmap _ he

end Doubts

end TextGrammar
