import TextGrammar.Store.Request
import TextGrammar.Proofs.NameMap.Entries

/-!
# What requests make of a map

A request is answered or refused. Whatever it is, it changes a map by writing names and by removing
names only, so that what both keep is kept by every request, and by every sequence of requests,
whether they are refused or not.

## Main definitions

* `runAll` — takes steps one after the other.
* `Effect` — what a request does to a map.
* `AssociationList` — how a map of a kind answers requests, and what they leave of its entries.

## Main results

* `perform_effect` — every request does something of this kind.
* `eq_of_perform_eq_error` — a refused request that is not an update changes nothing.
* `perform_keeps` — what writing and removing keep is kept by every request.
* `NameMap.WellFormed.associationList` — a map with one entry for each name is an association list.
-/

namespace TextGrammar

/-! ## Steps one after the other -/

section Steps

universe u v w

variable {S T : Type u} {R : Type v} {A : Type w} {step : S → R → A × S}

/-- Takes steps one after the other, each from where the one before has led: the answers, and where
the last one leads. -/
def runAll (step : S → R → A × S) : S → List R → List A × S
  | s, [] => ([], s)
  | s, r :: rs =>
    let rest := runAll step (step s r).2 rs
    ((step s r).1 :: rest.1, rest.2)

/-- What every step keeps is kept. -/
theorem runAll_keeps {P : S → Prop} (hstep : ∀ s r, P s → P (step s r).2) {s : S} (hs : P s)
    (rs : List R) : P (runAll step s rs).2 := by
  induction rs generalizing s with
  | nil => exact hs
  | cons r rs ih => exact ih (hstep s r hs)

/-- Steps that do the same, one by one, to what `f` represents give the same answers and lead to
what `f` represents. -/
theorem runAll_represents {f : S → T} {other : T → R → A × T} {P : S → Prop}
    (hkeeps : ∀ s r, P s → P (step s r).2)
    (hstep : ∀ s r, P s → other (f s) r = ((step s r).1, f (step s r).2)) {s : S} (hs : P s)
    (rs : List R) :
    runAll other (f s) rs = ((runAll step s rs).1, f (runAll step s rs).2) := by
  induction rs generalizing s with
  | nil => rfl
  | cons r rs ih =>
    rw [runAll, hstep s r hs, ih (hkeeps s r hs)]
    rfl

end Steps

variable {V : Type}

/-! ## Looking up -/

theorem lookUp_text (m : NameMap V) (name : Text) :
    lookUp m (.text name) = match m.get? name with
      | some v => .ok v
      | none => .error (.missing name.lower) := rfl

theorem lookUp_of_get? {m : NameMap V} {name : Text} {v : V} (h : m.get? name = some v) :
    lookUp m (.text name) = .ok v := by
  rw [lookUp_text, h]

theorem lookUp_of_absent {m : NameMap V} {name : Text} (h : m.contains name = false) :
    lookUp m (.text name) = .error (.missing name.lower) := by
  rw [lookUp_text, (m.contains_eq_false_iff_get? name).1 h]

/-! ## Writing -/

theorem store_of_accept {kind : Admission V} {name : Text} {value : Value} {v : V}
    (h : kind.accept (.text name) value = .ok v) (m : NameMap V) :
    store kind m (.text name) value = .ok (m.insert name v) := by
  simp only [store, h, bind, Except.bind]

/-- What is written has been admitted, and its key is a text. -/
theorem exists_of_store_eq_ok {kind : Admission V} {m m' : NameMap V} {key value : Value}
    (h : store kind m key value = .ok m') :
    ∃ name v, key = .text name ∧ kind.accept key value = .ok v ∧ m' = m.insert name v := by
  rw [store] at h
  cases hv : kind.accept key value with
  | error e => rw [hv] at h; cases h
  | ok v =>
    simp only [hv, bind, Except.bind] at h
    cases key with
    | text name => exact ⟨name, v, rfl, rfl, (Except.ok.inj h).symm⟩
    | _ => cases h

/-- The map has no say in whether a write is refused. -/
theorem store_eq_error {kind : Admission V} {m : NameMap V} {key value : Value} {e : Refusal}
    (h : store kind m key value = .error e) (other : NameMap V) :
    store kind other key value = .error e := by
  rw [store] at h ⊢
  cases hv : kind.accept key value with
  | error e => rw [hv] at h; cases h; rfl
  | ok v =>
    simp only [hv, bind, Except.bind] at h ⊢
    cases key with
    | text name => cases h
    | _ => cases h; rfl

/-- The entries of a map as pairs of values. -/
def itemsOf (kind : Admission V) (entries : List (Text × V)) : List (Value × Value) :=
  entries.map fun e => (.text e.1, kind.toValue e.2)

/-- Entries are written again as they are. -/
theorem storeAll_itemsOf (kind : Admission V) (m : NameMap V) (entries : List (Text × V)) :
    storeAll kind m (itemsOf kind entries) = (none, m.insertAll entries) := by
  induction entries generalizing m with
  | nil => rfl
  | cons e entries ih =>
    have hstore : store kind m (.text e.1) (kind.toValue e.2) = .ok (m.insert e.1 e.2) :=
      store_of_accept (kind.readmits _ _) m
    rw [itemsOf, List.map_cons, storeAll, hstore]
    exact ih (m.insert e.1 e.2)

/-! ## What a request does to a map -/

/-- What a request does to a map: nothing, whatever it is answered; it writes or removes one name or
all of them, and is answered; or it is an update. -/
inductive Effect (kind : Admission V) (m : NameMap V) :
    Request → Except Refusal Value → NameMap V → Prop
  /-- Nothing changes. -/
  | nothing {r : Request} {answer : Except Refusal Value} : Effect kind m r answer m
  /-- A name is written. -/
  | written {r : Request} {answer : Value} {name : Text} {v : V} :
    Effect kind m r (.ok answer) (m.insert name v)
  /-- A name is removed. -/
  | removed {r : Request} {answer : Value} {name : Text} : Effect kind m r (.ok answer) (m.erase name)
  /-- All names are removed. -/
  | cleared {r : Request} {answer : Value} : Effect kind m r (.ok answer) ∅
  /-- Pairs are written as far as they are admitted. -/
  | updated {pairs : List (Value × Value)} {answer : Except Refusal Value} :
    Effect kind m (.update pairs) answer (storeAll kind m pairs).2

section Effects

variable {kind : Admission V} {m next : NameMap V} {r : Request} {answer : Value}

theorem Effect.of_store {key value : Value} (h : store kind m key value = .ok next) :
    Effect kind m r (.ok answer) next := by
  obtain ⟨name, v, -, -, rfl⟩ := exists_of_store_eq_ok h
  exact .written

/-- Only texts are looked up, so that a name is removed. -/
theorem Effect.of_lookUp {key : Value} {v : V} (h : lookUp m key = .ok v) :
    Effect kind m r (.ok answer) (remove m key) := by
  cases key with
  | text name => exact .removed
  | _ => cases h

/-- The first entry is removed as every other. -/
theorem Effect.of_popFirst? {e : Text × V} (h : m.popFirst? = some (e, next)) :
    Effect kind m r (.ok answer) next := by
  obtain ⟨entries⟩ := m
  cases entries with
  | nil => cases h
  | cons first rest =>
    cases h
    exact NameMap.erase_first e rest ▸ .removed

theorem perform_effect (kind : Admission V) (m : NameMap V) (r : Request) :
    Effect kind m r (perform kind m r).1 (perform kind m r).2 := by
  -- What is looked up or stored first decides whether there is anything to be changed.
  cases r with
  | set key value =>
    rw [perform]
    cases h : store kind m key value with
    | ok next => exact .of_store h
    | error e => exact .nothing
  | delete key =>
    rw [perform]
    cases h : lookUp m key with
    | ok v => exact .of_lookUp h
    | error e => exact .nothing
  | pop key other =>
    simp only [perform]
    split
    · rename_i h
      exact .of_lookUp h
    · exact .nothing
    · exact .nothing
  | popFirst =>
    rw [perform]
    cases h : m.popFirst? with
    | some first => exact .of_popFirst? h
    | none => exact .nothing
  | clear => exact .cleared
  | setDefault key value =>
    rw [perform]
    split
    · exact .nothing
    · cases h : store kind m key value with
      | ok next => exact .of_store h
      | error e => exact .nothing
    · exact .nothing
  | update pairs =>
    have hnext : (perform kind m (.update pairs)).2 = (storeAll kind m pairs).2 := by
      rw [perform]
      split <;> rename_i h <;> rw [h]
    exact hnext ▸ .updated
  | getOr key other =>
    rw [perform]
    split <;> exact .nothing
  | _ => exact .nothing

/-- Every refusal but that of an update comes before anything is written or removed. -/
theorem eq_of_perform_eq_error {e : Refusal} (hr : ∀ pairs, r ≠ .update pairs)
    (h : perform kind m r = (.error e, next)) : next = m := by
  have heffect := perform_effect kind m r
  rw [h] at heffect
  cases heffect with
  | nothing => rfl
  | updated => exact absurd rfl (hr _)

end Effects

/-! ## What every request keeps -/

/-- What writing and removing a name keep. -/
structure Kept (P : NameMap V → Prop) : Prop where
  /-- It holds of the empty map. -/
  empty : P ∅
  /-- Writing keeps it. -/
  insert : ∀ m name v, P m → P (m.insert name v)
  /-- Removing keeps it. -/
  erase : ∀ m name, P m → P (m.erase name)

section Keeps

variable {P : NameMap V → Prop}

theorem Kept.storeAll (hP : Kept P) (kind : Admission V) {m : NameMap V} (hm : P m)
    (pairs : List (Value × Value)) : P (storeAll kind m pairs).2 := by
  induction pairs generalizing m with
  | nil => exact hm
  | cons pair pairs ih =>
    rw [TextGrammar.storeAll]
    cases h : store kind m pair.1 pair.2 with
    | ok next =>
      obtain ⟨name, v, -, -, rfl⟩ := exists_of_store_eq_ok h
      exact ih (hP.insert m name v hm)
    | error e => exact hm

/-- What writing and removing a name keep is kept by every request, whether it is refused or not. -/
theorem perform_keeps (hP : Kept P) (kind : Admission V) {m : NameMap V} (hm : P m) (r : Request) :
    P (perform kind m r).2 := by
  have heffect := perform_effect kind m r
  generalize (perform kind m r).1 = answer, (perform kind m r).2 = next at heffect ⊢
  cases heffect with
  | nothing => exact hm
  | written => exact hP.insert m _ _ hm
  | removed => exact hP.erase m _ hm
  | cleared => exact hP.empty
  | updated => exact hP.storeAll kind hm _

end Keeps

theorem kept_wellFormed : Kept (V := V) NameMap.WellFormed where
  empty := List.Pairwise.nil
  insert _ name v hm := hm.insert name v
  erase _ name hm := hm.erase name

/-- Requests leave one entry for each name. -/
theorem wellFormed_runAll (kind : Admission V) (requests : List Request) :
    (runAll (perform kind) ∅ requests).2.WellFormed :=
  runAll_keeps (P := NameMap.WellFormed) (fun _ r hm => perform_keeps kept_wellFormed kind hm r)
    kept_wellFormed.empty requests

/-! ## Association lists -/

/-- How a map of a kind answers requests, and what they leave of its entries. -/
structure AssociationList (kind : Admission V) (m : NameMap V) : Prop where
  /-- The names, each as it was written last, and the values are listed in the order of the
  entries. -/
  listed : perform kind m .names = (.ok (.list (m.entries.map fun e => .text e.1)), m)
    ∧ perform kind m .values = (.ok (.list (m.entries.map fun e => kind.toValue e.2)), m)
  /-- No two of them are spellings of one name. -/
  distinct : m.entries.Pairwise fun a b => Text.lower a.1 ≠ Text.lower b.1
  /-- There are as many as the size says. -/
  counted : perform kind m .size = (.ok (.integer m.entries.length), m)
  /-- A name that is listed is there, with its own value, under every spelling. -/
  found : ∀ e ∈ m.entries, ∀ key, Text.lower key = Text.lower e.1 →
    perform kind m (.contains (.text key)) = (.ok (.truth true), m)
      ∧ perform kind m (.get (.text key)) = (.ok (kind.toValue e.2), m)
  /-- A value that is written is the answer for every spelling of its name, and every other name is
  answered as before; an entry of the name keeps its place, a new one comes last. -/
  set : ∀ name value v, kind.accept (.text name) value = .ok v →
    ∃ next, perform kind m (.set (.text name) value) = (.ok .null, next) ∧ m.Written name v next
      ∧ (∀ key, Text.lower key = Text.lower name →
          perform kind next (.get (.text key)) = (.ok (kind.toValue v), next))
      ∧ ∀ key, Text.lower key ≠ Text.lower name →
          (perform kind next (.get (.text key))).1 = (perform kind m (.get (.text key))).1
  /-- The entry of a name is deleted, or popped with its value, and all others stay in their
  order. -/
  removed : ∀ key, m.contains key = true → ∃ e rest, Text.lower e.1 = Text.lower key
    ∧ m.Without e rest ∧ perform kind m (.delete (.text key)) = (.ok .null, rest)
    ∧ ∀ other, perform kind m (.pop (.text key) other) = (.ok (kind.toValue e.2), rest)
  /-- A name without an entry is not deleted, and popped only as another value. -/
  absent : ∀ key, m.contains key = false →
    perform kind m (.delete (.text key)) = (.error (.missing key.lower), m)
      ∧ perform kind m (.pop (.text key) none) = (.error (.missing key.lower), m)
      ∧ ∀ other, perform kind m (.pop (.text key) (some other)) = (.ok other, m)
  /-- The first entry is popped with its name. -/
  popFirst : ∀ e rest, m.entries = e :: rest →
    perform kind m .popFirst = (.ok (.list [.text e.1, kind.toValue e.2]), ⟨rest⟩)
  /-- Nothing is popped first from an empty map. -/
  popFirst_empty : m.entries = [] → perform kind m .popFirst = (.error .nothingThere, m)
  /-- A cleared map is empty. -/
  clear : perform kind m .clear = (.ok .null, ∅)
  /-- The entries, written one after the other, give the map again. -/
  rebuilt : perform kind ∅ (.update (itemsOf kind m.entries)) = (.ok .null, m)

section Answers

variable (kind : Admission V) {m : NameMap V}

theorem perform_get_of_get? {key : Text} {v : V} (h : m.get? key = some v) :
    perform kind m (.get (.text key)) = (.ok (kind.toValue v), m) := by
  rw [perform, lookUp_of_get? h]
  rfl

theorem perform_get_congr {next : NameMap V} {key : Text} (h : next.get? key = m.get? key) :
    (perform kind next (.get (.text key))).1 = (perform kind m (.get (.text key))).1 := by
  rw [perform, perform, lookUp_text, lookUp_text, h]

theorem perform_set_of_accept {name : Text} {value : Value} {v : V}
    (h : kind.accept (.text name) value = .ok v) :
    perform kind m (.set (.text name) value) = (.ok .null, m.insert name v) := by
  rw [perform, store_of_accept h]

theorem perform_delete_of_get? {key : Text} {v : V} (h : m.get? key = some v) :
    perform kind m (.delete (.text key)) = (.ok .null, m.erase key) := by
  rw [perform, lookUp_of_get? h]
  rfl

theorem perform_pop_of_get? {key : Text} {v : V} (h : m.get? key = some v) (other : Option Value) :
    perform kind m (.pop (.text key) other) = (.ok (kind.toValue v), m.erase key) := by
  simp only [perform, lookUp_of_get? h]
  rfl

end Answers

/-- A map with one entry for each name is an association list. -/
theorem NameMap.WellFormed.associationList {m : NameMap V} (h : m.WellFormed)
    (kind : Admission V) : AssociationList kind m where
  listed := by
    rw [perform, perform, names, values, List.map_map, List.map_map]
    exact ⟨rfl, rfl⟩
  distinct := h
  counted := rfl
  found := by
    intro e he key hkey
    have hget : m.get? key = some e.2 := (m.get?_congr hkey).trans (h.get?_of_mem he)
    refine ⟨?_, perform_get_of_get? kind hget⟩
    rw [perform, holds, contains_of_get? hget]
  set := by
    intro name value v hv
    refine ⟨m.insert name v, perform_set_of_accept kind hv, m.written_insert name v, ?_, ?_⟩
    · exact fun key hkey => perform_get_of_get? kind (m.get?_insert_of_lower_eq v hkey)
    · exact fun key hkey => perform_get_congr kind (m.get?_insert_of_lower_ne v hkey)
  removed := by
    intro key hkey
    obtain ⟨v, hv⟩ := exists_get?_of_contains hkey
    obtain ⟨e, hname, rfl, hrest⟩ := without_erase hv
    exact ⟨e, m.erase key, hname, hrest, perform_delete_of_get? kind hv,
      perform_pop_of_get? kind hv⟩
  absent := by
    intro key hkey
    simp only [perform, lookUp_of_absent hkey, implies_true, and_self]
  popFirst := by
    obtain ⟨entries⟩ := m
    rintro e rest rfl
    rfl
  popFirst_empty := by
    obtain ⟨entries⟩ := m
    rintro rfl
    rfl
  clear := rfl
  rebuilt := by
    rw [perform, storeAll_itemsOf]
    exact congrArg _ h.ofList_entries

end TextGrammar
