import TextGrammar.Proofs.Store.Dictionary

/-!
# Refused requests

Keys and values of any kind are asked to be written. Rule tables admit what can be read as
candidates, registries admit modifiers, and both take texts as keys only. Whatever else is asked
is refused, and a refused request changes nothing, but for an update: that has written the pairs
before the first one that is refused, whatever the map.

## Main definitions

* `Value.Lists` — the candidates that a value can be read as.
* `Guarded` — what refused requests to a map leave.
* `TableRequest`, `RuleTable.perform` — all that can be asked of rule tables.
* `RuleTable.Guarded`, `Registry.Guarded` — what holds of rule tables and of registries.

## Main results

* `guarded` — what refused requests leave, to every map of every kind.
* `requests_keep_tables_and_registries` — whatever rule tables and registries are asked, they hold
  candidates and modifiers under texts.
-/

namespace TextGrammar

variable {V : Type}

/-! ## What is admitted -/

/-- The candidates that a value can be read as: a text is the only candidate, a list and the keys of
a mapping are candidates when they are all texts. -/
inductive Value.Lists : Value → List Text → Prop
  /-- A text. -/
  | text (t : Text) : Lists (.text t) [t]
  /-- A list of texts. -/
  | list (texts : List Text) : Lists (.list (texts.map .text)) texts
  /-- A mapping whose keys are texts. -/
  | mapping {entries : List (Value × Value)} {texts : List Text}
    (h : entries.map (·.1) = texts.map .text) : Lists (.mapping entries) texts
  /-- The candidates of a symbol. -/
  | candidates (texts : List Text) : Lists (.candidates texts) texts

theorem candidatesOf_texts (key : Value) (texts : List Text) :
    candidatesOf key (texts.map .text) = .ok texts := by
  induction texts with
  | nil => rfl
  | cons t texts ih =>
    rw [List.map_cons, candidatesOf, ih]
    rfl

/-- Only texts become candidates. -/
theorem eq_map_of_candidatesOf_eq_ok {key : Value} {items : List Value} {texts : List Text}
    (h : candidatesOf key items = .ok texts) : items = texts.map .text := by
  induction items generalizing texts with
  | nil =>
    cases h
    rfl
  | cons item items ih =>
    cases item with
    | text t =>
      rw [candidatesOf] at h
      cases hrest : candidatesOf key items with
      | ok rest =>
        rw [hrest] at h
        cases h
        rw [List.map_cons, ih hrest]
      | error e =>
        rw [hrest] at h
        cases h
    | _ => cases h

theorem candidateLists_accept_eq_ok_iff {key value : Value} {texts : List Text} :
    Admission.candidateLists.accept key value = .ok texts ↔ value.Lists texts := by
  constructor
  · intro h
    cases value with
    | text t =>
      cases h
      exact .text t
    | list items =>
      obtain rfl := eq_map_of_candidatesOf_eq_ok h
      exact .list texts
    | mapping entries => exact .mapping (eq_map_of_candidatesOf_eq_ok h)
    | candidates texts =>
      cases h
      exact .candidates texts
    | _ => cases h
  · intro h
    cases h with
    | text t => rfl
    | list texts => exact candidatesOf_texts key texts
    | mapping h => exact (congrArg (candidatesOf key) h).trans (candidatesOf_texts key texts)
    | candidates texts => rfl

theorem modifiers_accept_eq_ok_iff {key value : Value} {m : Modifier} :
    Admission.modifiers.accept key value = .ok m ↔ value = .modifier m := by
  constructor
  · intro h
    cases value with
    | modifier n =>
      cases h
      rfl
    | _ => cases h
  · rintro rfl
    rfl

/-- A value is written when it is admitted and its key is a text. -/
theorem perform_set_eq_ok_iff {kind : Admission V} {m next : NameMap V} {key value : Value} :
    perform kind m (.set key value) = (.ok .null, next) ↔
      ∃ name v, key = .text name ∧ kind.accept key value = .ok v ∧ next = m.insert name v := by
  constructor
  · intro h
    rw [perform] at h
    split at h <;> cases h
    rename_i hstore
    exact exists_of_store_eq_ok hstore
  · rintro ⟨name, v, rfl, hv, rfl⟩
    exact perform_set_of_accept kind hv

/-! ## What a refused request leaves -/

/-- What refused requests to a map leave. -/
structure Guarded (kind : Admission V) (m : NameMap V) : Prop where
  /-- A refused request that is not an update leaves the map as it was. -/
  unchanged : ∀ r e next, (∀ pairs, r ≠ .update pairs) →
    perform kind m r = (.error e, next) → next = m
  /-- A refused update leaves what the pairs before the first bad one make of the map. -/
  updated : ∀ pairs e next, perform kind m (.update pairs) = (.error e, next) →
    ∃ before bad after, pairs = before ++ bad :: after
      ∧ perform kind m (.update before) = (.ok .null, next)
      ∧ ∀ other, perform kind other (.set bad.1 bad.2) = (.error e, other)

/-- Pairs are written up to the first one that every map refuses. -/
theorem exists_of_storeAll_eq_some {kind : Admission V} {m next : NameMap V}
    {pairs : List (Value × Value)} {e : Refusal} (h : storeAll kind m pairs = (some e, next)) :
    ∃ before bad after, pairs = before ++ bad :: after
      ∧ storeAll kind m before = (none, next)
      ∧ ∀ other, store kind other bad.1 bad.2 = .error e := by
  induction pairs generalizing m with
  | nil => cases h
  | cons pair pairs ih =>
    rw [storeAll] at h
    cases hstore : store kind m pair.1 pair.2 with
    | ok m' =>
      rw [hstore] at h
      obtain ⟨before, bad, after, rfl, hbefore, hbad⟩ := ih h
      refine ⟨pair :: before, bad, after, rfl, ?_, hbad⟩
      rw [storeAll, hstore]
      exact hbefore
    | error e' =>
      rw [hstore] at h
      cases h
      exact ⟨[], pair, pairs, rfl, rfl, store_eq_error hstore⟩

theorem perform_update_eq_ok_iff {kind : Admission V} {m next : NameMap V}
    {pairs : List (Value × Value)} :
    perform kind m (.update pairs) = (.ok .null, next) ↔ storeAll kind m pairs = (none, next) := by
  rw [perform]
  split <;> rename_i h <;> simp [h]

theorem guarded (kind : Admission V) (m : NameMap V) : Guarded kind m where
  unchanged _ _ _ hr h := eq_of_perform_eq_error hr h
  updated := by
    intro pairs e next h
    rw [perform] at h
    split at h
    · cases h
    · rename_i hpairs
      cases h
      obtain ⟨before, bad, after, hsplit, hbefore, hbad⟩ := exists_of_storeAll_eq_some hpairs
      refine ⟨before, bad, after, hsplit, perform_update_eq_ok_iff.2 hbefore, fun other => ?_⟩
      rw [perform, hbad other]

example : (runAll (perform .candidateLists) ∅
    [.set (.text "Hero".toList) (.text "Mia".toList),
      .update [(.text "mood".toList, .list []),
        (.text "HERO".toList, .list [.text "Yuki".toList, .integer 3]),
        (.text "city".toList, .list [])]]).2.entries
      = [("Hero".toList, ["Mia".toList]), ("mood".toList, [])] := by decide

/-! ## Rule tables -/

/-- What can be asked of a rule table. -/
inductive TableRequest where
  /-- What can be asked of every map. -/
  | common (r : Request)
  /-- Add a symbol that must not be there yet. -/
  | add (key candidates : Value)
  /-- Remove a symbol, if it is there. -/
  | remove (key : Value)

/-- The answer to a request and the rule table afterwards. -/
def RuleTable.perform (table : RuleTable) : TableRequest → Except Refusal Value × RuleTable
  | .common r => TextGrammar.perform .candidateLists table r
  | .add key candidates => addSymbol table key candidates
  | .remove key => (.ok (.truth (removeSymbol table key).1), (removeSymbol table key).2)

/-- The answer to a request and the dictionary of a rule table afterwards. -/
def Dictionary.performTable (d : Dictionary) : TableRequest → Except Refusal Value × Dictionary
  | .common r => d.perform .candidateLists r
  | .add key candidates =>
    if d.holds key then (.error (.alreadyDefined key.plain), d)
    else d.perform .candidateLists (.set key candidates)
  | .remove key =>
    if d.holds key then
      match d.deleteItem key with
      | .ok rest => (.ok (.truth true), rest)
      | .error e => (.error e, d)
    else (.ok (.truth false), d)

theorem holds_eq_true_iff {m : NameMap V} {key : Value} :
    holds m key = true ↔ ∃ name, key = .text name ∧ m.contains name = true := by
  cases key with
  | text name => simp [holds]
  | _ => simp [holds]

/-- Rule tables keep what writing and removing a name keep. -/
theorem RuleTable.perform_keeps {P : RuleTable → Prop} (hP : Kept P) {table : RuleTable}
    (ht : P table) (r : TableRequest) : P (RuleTable.perform table r).2 := by
  cases r with
  | common r => exact TextGrammar.perform_keeps hP _ ht r
  | add key candidates =>
    rw [RuleTable.perform, addSymbol]
    split
    · exact ht
    · exact TextGrammar.perform_keeps hP _ ht (.set key candidates)
  | remove key =>
    rw [RuleTable.perform, removeSymbol]
    split
    · rename_i hkey
      obtain ⟨name, rfl, -⟩ := holds_eq_true_iff.1 hkey
      exact hP.erase table name ht
    · exact ht

/-- A key that is there is looked up. -/
theorem exists_lookUp_of_holds {m : NameMap V} {key : Value} (h : holds m key = true) :
    ∃ v, lookUp m key = .ok v := by
  obtain ⟨name, rfl, hname⟩ := holds_eq_true_iff.1 h
  obtain ⟨v, hv⟩ := NameMap.exists_get?_of_contains hname
  exact ⟨v, lookUp_of_get? hv⟩

theorem Dictionary.performTable_of {table : RuleTable} (h : table.WellFormed) (r : TableRequest) :
    (Dictionary.of .candidateLists table).performTable r
      = ((RuleTable.perform table r).1, .of .candidateLists (RuleTable.perform table r).2) := by
  cases r with
  | common r => exact perform_of _ h r
  | add key candidates =>
    rw [performTable, RuleTable.perform, addSymbol, holds_of]
    split
    · rfl
    · exact perform_of _ h _
  | remove key =>
    rw [performTable, RuleTable.perform, removeSymbol, holds_of, deleteItem_of]
    split
    -- A key that is there is not refused when it is deleted.
    · rename_i hkey
      obtain ⟨v, hv⟩ := exists_lookUp_of_holds hkey
      rw [hv]
      rfl
    · rfl

/-- What holds of a rule table. -/
structure RuleTable.Guarded (table : RuleTable) : Prop where
  /-- What is refused of what can be asked of every map. -/
  common : TextGrammar.Guarded .candidateLists table
  /-- What can be read as candidates is written, and nothing else, and under texts only. -/
  written : ∀ key value next,
    TextGrammar.perform .candidateLists table (.set key value) = (.ok .null, next) ↔
      ∃ name texts, key = .text name ∧ value.Lists texts ∧ next = table.insert name texts
  /-- A symbol that is not added changes nothing. -/
  unchanged : ∀ key candidates e next,
    addSymbol table key candidates = (.error e, next) → next = table
  /-- A symbol is added when its key is a text with no spelling in the table and what is to be added
  can be read as candidates; it comes last. -/
  added : ∀ key candidates next, addSymbol table key candidates = (.ok .null, next) ↔
    ∃ name texts, key = .text name ∧ table.contains name = false ∧ candidates.Lists texts
      ∧ next = ⟨table.entries ++ [(name, texts)]⟩
  /-- A symbol that is said to be removed had an entry, which is gone; the others stay. -/
  removed : ∀ key next, removeSymbol table key = (true, next) →
    ∃ name e, key = .text name ∧ Text.lower e.1 = Text.lower name ∧ table.Without e next
  /-- A symbol that is said not to be removed had no entry, and nothing changes. -/
  kept : ∀ key next, removeSymbol table key = (false, next) →
    next = table ∧ ∀ name, key = .text name → table.contains name = false

theorem addSymbol_eq_ok_iff {table next : RuleTable} {key candidates : Value} :
    addSymbol table key candidates = (.ok .null, next) ↔
      ∃ name texts, key = .text name ∧ table.contains name = false ∧ candidates.Lists texts
        ∧ next = ⟨table.entries ++ [(name, texts)]⟩ := by
  have hlast : ∀ name texts, table.contains name = false →
      table.insert name texts = ⟨table.entries ++ [(name, texts)]⟩ := by
    intro name texts hname
    rw [NameMap.insert, NameMap.insertEntry_of_absent ((table.contains_eq_false_iff name).1 hname)]
  rw [addSymbol]
  split
  · rename_i hkey
    obtain ⟨name, rfl, hname⟩ := holds_eq_true_iff.1 hkey
    constructor
    · intro h
      cases h
    · rintro ⟨_, _, heq, habsent, -⟩
      cases heq
      rw [hname] at habsent
      cases habsent
  · rename_i hkey
    rw [perform_set_eq_ok_iff]
    constructor
    · rintro ⟨name, texts, rfl, hvalue, rfl⟩
      have hname : table.contains name = false := Bool.not_eq_true _ ▸ hkey
      exact ⟨name, texts, rfl, hname, candidateLists_accept_eq_ok_iff.1 hvalue,
        hlast name texts hname⟩
    · rintro ⟨name, texts, rfl, hname, hvalue, rfl⟩
      exact ⟨name, texts, rfl, candidateLists_accept_eq_ok_iff.2 hvalue,
        (hlast name texts hname).symm⟩

theorem RuleTable.guarded (table : RuleTable) : table.Guarded where
  common := TextGrammar.guarded _ table
  written := by
    intro key value next
    simp only [perform_set_eq_ok_iff, candidateLists_accept_eq_ok_iff]
  unchanged := by
    intro key candidates e next h
    rw [addSymbol] at h
    split at h
    · exact (Prod.mk.inj h).2.symm
    · exact eq_of_perform_eq_error (fun _ => Request.noConfusion) h
  added _ _ _ := addSymbol_eq_ok_iff
  removed := by
    intro key next h
    rw [removeSymbol] at h
    split at h <;> cases h
    rename_i hkey
    obtain ⟨name, rfl, hname⟩ := holds_eq_true_iff.1 hkey
    obtain ⟨v, hv⟩ := NameMap.exists_get?_of_contains hname
    obtain ⟨e, he, -, hrest⟩ := NameMap.without_erase hv
    exact ⟨name, e, rfl, he, hrest⟩
  kept := by
    intro key next h
    rw [removeSymbol] at h
    split at h <;> cases h
    rename_i hkey
    refine ⟨rfl, fun name hname => ?_⟩
    rw [← Bool.not_eq_true]
    exact fun hcontains => hkey (holds_eq_true_iff.2 ⟨name, hname, hcontains⟩)

/-! ## Registries -/

/-- What holds of a registry; a modifier is registered by writing it. -/
structure Registry.Guarded (registry : Registry) : Prop where
  /-- What is refused of what can be asked of every map. -/
  common : TextGrammar.Guarded .modifiers registry
  /-- Only modifiers are registered, and under texts only. -/
  registered : ∀ key value next, perform .modifiers registry (.set key value) = (.ok .null, next) ↔
    ∃ name m, key = .text name ∧ value = .modifier m ∧ next = registry.insert name m
  /-- What is listed can be called, under every spelling of its name, and answers for itself. -/
  called : ∀ e ∈ registry.entries, ∀ key t, Text.lower key = Text.lower e.1 →
    callModifier registry (.text key) t = ((e.2.change t).map .text).mapError .missing

theorem NameMap.WellFormed.guarded_registry {registry : Registry} (h : registry.WellFormed) :
    registry.Guarded where
  common := TextGrammar.guarded _ registry
  registered := by
    intro key value next
    simp only [perform_set_eq_ok_iff, modifiers_accept_eq_ok_iff]
  called := by
    intro e he key t hkey
    rw [callModifier, lookUp_of_get? ((registry.get?_congr hkey).trans (h.get?_of_mem he))]
    rfl

/-! ## All requests -/

/-- Whatever rule tables and registries are asked, one request after the other, they are answered as
their dictionaries are; a dictionary holds nothing but candidates, or nothing but modifiers, under
texts; and refused requests have changed nothing but for the pairs of an update before the first bad
one. -/
theorem requests_keep_tables_and_registries :
    (∀ requests : List TableRequest,
      let run := runAll RuleTable.perform ∅ requests
      let kept := runAll Dictionary.performTable ∅ requests
      kept = (run.1, .of .candidateLists run.2)
        ∧ (∀ c ∈ kept.2.cells, ∃ name texts, c = (Text.lower name, .text name, .candidates texts))
        ∧ run.2.Guarded)
    ∧ ∀ requests : List Request,
      let run := runAll (perform .modifiers) ∅ requests
      let kept := runAll (Dictionary.perform .modifiers) ∅ requests
      kept = (run.1, .of .modifiers run.2)
        ∧ (∀ c ∈ kept.2.cells, ∃ name m, c = (Text.lower name, .text name, .modifier m))
        ∧ Registry.Guarded run.2 := by
  refine ⟨fun requests => ?_, fun requests => ?_⟩
  · intro run kept
    have hkept : kept = (run.1, .of .candidateLists run.2) :=
      runAll_represents (f := Dictionary.of .candidateLists) (P := NameMap.WellFormed)
        (fun _ r ht => RuleTable.perform_keeps kept_wellFormed ht r)
        (fun _ r ht => Dictionary.performTable_of ht r) kept_wellFormed.empty requests
    refine ⟨hkept, fun c hc => ?_, RuleTable.guarded run.2⟩
    rw [hkept] at hc
    obtain ⟨e, -, rfl⟩ := List.mem_map.1 hc
    exact ⟨e.1, e.2, rfl⟩
  · intro run kept
    have hkept : kept = (run.1, .of .modifiers run.2) :=
      Dictionary.runAll_perform_of .modifiers requests
    refine ⟨hkept, fun c hc => ?_, (wellFormed_runAll .modifiers requests).guarded_registry⟩
    rw [hkept] at hc
    obtain ⟨e, -, rfl⟩ := List.mem_map.1 hc
    exact ⟨e.1, e.2, rfl⟩

end TextGrammar
