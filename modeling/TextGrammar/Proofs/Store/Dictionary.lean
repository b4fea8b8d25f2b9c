import TextGrammar.Proofs.Store.Requests

/-!
# Maps kept in dictionaries

A map can be kept in a dictionary of cells. A cell stands under a name in lower case and holds the
key as it was written last and the value that is stored, both of any kind. Only three things are
done to the cells themselves: a key is looked up, written or deleted. Every other request is made of
these three and of the list of the keys as they were written, which are brought to lower case again
whenever they are used. Nothing in a dictionary says that a cell stands under the lower case of its
own key. That holds of the dictionaries that requests lead to, and it is why requests to them are
answered as requests to the map are.

## Main definitions

* `Dictionary`, `Dictionary.perform` — dictionaries, and how a request to one is carried out.
* `Dictionary.of` — the dictionary that keeps a map.

## Main results

* `Dictionary.perform_of` — one request to the dictionary of a map does what it does to the map.
* `Dictionary.runAll_refines` — so does every sequence of requests, refused ones among them, and
  what it leads to is an association list.
-/

namespace TextGrammar

/-- Cells in order: each under a name in lower case, with the key as it was written last and the
value that is stored. -/
structure Dictionary where
  cells : List (Text × Value × Value) := []

namespace Dictionary

instance : EmptyCollection Dictionary := ⟨⟨[]⟩⟩

/-! ## What is done to the cells -/

/-- The cell under a name. -/
def cell? (d : Dictionary) (name : Text) : Option (Value × Value) :=
  (d.cells.find? (·.1 == name)).map (·.2)

/-- Puts a cell under a name: where the name has one already, else behind all others. -/
def putCell (name : Text) (cell : Value × Value) :
    List (Text × Value × Value) → List (Text × Value × Value)
  | [] => [(name, cell)]
  | c :: rest => if c.1 == name then (name, cell) :: rest else c :: putCell name cell rest

/-- The value of a key. -/
def getItem (d : Dictionary) (key : Value) : Except Refusal Value := do
  let name ← nameOf key
  match d.cell? name.lower with
  | some cell => .ok cell.2
  | none => .error (.missing name.lower)

/-- Writes a value under a key. -/
def setItem {V : Type} (kind : Admission V) (d : Dictionary) (key value : Value) :
    Except Refusal Dictionary := do
  let v ← kind.accept key value
  match key with
  | .text name => .ok ⟨putCell name.lower (key, kind.toValue v) d.cells⟩
  | k => .error (.keyNotText k.kind)

/-- Deletes the cell of a key. -/
def deleteItem (d : Dictionary) (key : Value) : Except Refusal Dictionary := do
  let name ← nameOf key
  match d.cell? name.lower with
  | some _ => .ok ⟨d.cells.eraseP (·.1 == name.lower)⟩
  | none => .error (.missing name.lower)

/-- Whether a key has a cell. -/
def holds (d : Dictionary) (key : Value) : Bool :=
  match key with
  | .text name => (d.cell? name.lower).isSome
  | _ => false

/-- The keys as they were written last, in order. -/
def keys (d : Dictionary) : List Value := d.cells.map (·.2.1)

/-! ## What is made of it -/

/-- The keys with the values that they have. -/
def items (d : Dictionary) : Except Refusal (List (Value × Value)) :=
  d.keys.mapM fun key => (d.getItem key).map (key, ·)

/-- The values that the keys have. -/
def values (d : Dictionary) : Except Refusal (List Value) := d.keys.mapM d.getItem

/-- Looks a key up and deletes it; when it is missing the answer may be another value. -/
def pop (d : Dictionary) (key : Value) (other : Option Value) : Except Refusal Value × Dictionary :=
  match d.getItem key, other with
  | .ok value, _ =>
    match d.deleteItem key with
    | .ok rest => (.ok value, rest)
    | .error e => (.error e, d)
  | .error (.missing _), some value => (.ok value, d)
  | .error e, _ => (.error e, d)

/-- Pops the first key. -/
def popFirst (d : Dictionary) : Except Refusal (Value × Value) × Dictionary :=
  match d.keys with
  | [] => (.error .nothingThere, d)
  | key :: _ => ((d.pop key none).1.map (key, ·), (d.pop key none).2)

theorem length_lt_of_deleteItem {d rest : Dictionary} {key : Value}
    (h : d.deleteItem key = .ok rest) : rest.cells.length < d.cells.length := by
  cases key with
  | text name =>
    simp only [deleteItem, nameOf, bind, Except.bind] at h
    split at h
    · rename_i cell hcell
      cases h
      obtain ⟨c, hc, -⟩ := Option.map_eq_some_iff.1 hcell
      have hmem := List.mem_of_find?_eq_some hc
      rw [List.length_eraseP_of_mem hmem (List.find?_some hc)]
      exact Nat.sub_lt (List.length_pos_of_mem hmem) Nat.one_pos
    · cases h
  | _ => cases h

/-- What is popped, when nothing else is to be answered, has been deleted. -/
theorem deleteItem_of_pop {d rest : Dictionary} {key value : Value}
    (h : d.pop key none = (.ok value, rest)) : d.deleteItem key = .ok rest := by
  simp only [pop] at h
  cases hget : d.getItem key with
  | ok v =>
    rw [hget] at h
    cases hdelete : d.deleteItem key with
    | ok next =>
      rw [hdelete] at h
      exact congrArg Except.ok (Prod.mk.inj h).2
    | error e =>
      rw [hdelete] at h
      cases h
  | error e =>
    rw [hget] at h
    cases e <;> cases h

theorem length_lt_of_popFirst {d rest : Dictionary} {first : Value × Value}
    (h : d.popFirst = (.ok first, rest)) : rest.cells.length < d.cells.length := by
  rw [popFirst] at h
  cases hkeys : d.keys with
  | nil => simp [hkeys] at h
  | cons key others =>
    simp only [hkeys, Prod.mk.injEq] at h
    obtain ⟨hanswer, rfl⟩ := h
    cases hpop : (d.pop key none).1 with
    | ok value => exact length_lt_of_deleteItem (deleteItem_of_pop (Prod.ext hpop rfl))
    | error e => simp [hpop, Except.map] at hanswer

/-- Pops the first key until that is refused. -/
def clear (d : Dictionary) : Dictionary :=
  match h : d.popFirst with
  | (.ok _, rest) =>
    have : rest.cells.length < d.cells.length := length_lt_of_popFirst h
    clear rest
  | (.error _, rest) => rest
termination_by d.cells.length

theorem clear_of_popFirst {d rest : Dictionary} {first : Value × Value}
    (h : d.popFirst = (.ok first, rest)) : d.clear = rest.clear := by
  rw [clear]
  split <;> rename_i hpop <;> rw [h] at hpop <;> cases hpop
  rfl

/-- Writes pairs one after the other up to the first that is refused. -/
def update {V : Type} (kind : Admission V) :
    Dictionary → List (Value × Value) → Except Refusal Value × Dictionary
  | d, [] => (.ok .null, d)
  | d, pair :: pairs =>
    match d.setItem kind pair.1 pair.2 with
    | .ok d => update kind d pairs
    | .error e => (.error e, d)

variable {V : Type}

/-- The answer to a request and the dictionary afterwards. -/
def perform (kind : Admission V) (d : Dictionary) :
    Request → Except Refusal Value × Dictionary
  | .set key value =>
    match d.setItem kind key value with
    | .ok d => (.ok .null, d)
    | .error e => (.error e, d)
  | .get key => (d.getItem key, d)
  | .getOr key other =>
    match d.getItem key with
    | .error (.missing _) => (.ok other, d)
    | result => (result, d)
  | .delete key =>
    match d.deleteItem key with
    | .ok d => (.ok .null, d)
    | .error e => (.error e, d)
  | .contains key => (.ok (.truth (d.holds key)), d)
  | .size => (.ok (.integer d.cells.length), d)
  | .nonempty => (.ok (.truth (!d.cells.isEmpty)), d)
  | .names => (.ok (.list d.keys), d)
  | .values => (d.values.map .list, d)
  | .pop key other => d.pop key other
  | .popFirst => (d.popFirst.1.map fun first => .list [first.1, first.2], d.popFirst.2)
  | .clear => (.ok .null, d.clear)
  | .setDefault key value =>
    match d.getItem key with
    | .ok v => (.ok v, d)
    | .error (.missing _) =>
      match d.setItem kind key value with
      | .ok d => (.ok value, d)
      | .error e => (.error e, d)
    | .error e => (.error e, d)
  | .update pairs => d.update kind pairs

/-! ## The dictionary of a map -/

/-- The cell of an entry: it stands under the lower case of its own key. -/
def cellOf (kind : Admission V) (e : Text × V) : Text × Value × Value :=
  (Text.lower e.1, .text e.1, kind.toValue e.2)

/-- The dictionary that keeps a map. -/
def of (kind : Admission V) (m : NameMap V) : Dictionary := ⟨m.entries.map (cellOf kind)⟩

section Of

variable (kind : Admission V) (m : NameMap V)

@[simp] theorem cells_of : (of kind m).cells = m.entries.map (cellOf kind) := rfl

@[simp] theorem keys_of : (of kind m).keys = m.entries.map fun e => .text e.1 := by
  rw [keys, cells_of, List.map_map]
  rfl

theorem cell?_of (name : Text) :
    (of kind m).cell? name.lower
      = (m.find? name).map fun e => (.text e.1, kind.toValue e.2) := by
  rw [cell?, cells_of, List.find?_map, Option.map_map]
  rfl

theorem putCell_of (name : Text) (v : V) (entries : List (Text × V)) :
    putCell name.lower (.text name, kind.toValue v) (entries.map (cellOf kind))
      = (NameMap.insertEntry name v entries).map (cellOf kind) := by
  induction entries with
  | nil => rfl
  | cons e rest ih =>
    by_cases he : Text.lower e.1 = Text.lower name
    · simp [putCell, NameMap.insertEntry, cellOf, he]
    · simpa [putCell, NameMap.insertEntry, cellOf, he] using ih

theorem getItem_of (key : Value) :
    (of kind m).getItem key = (lookUp m key).map kind.toValue := by
  cases key with
  | text name =>
    rw [lookUp_text, NameMap.get?, getItem]
    simp only [nameOf, bind, Except.bind, cell?_of]
    cases m.find? name <;> rfl
  | _ => rfl

theorem setItem_of (key value : Value) :
    (of kind m).setItem kind key value = (store kind m key value).map (of kind) := by
  simp only [setItem, store, bind, Except.bind]
  cases kind.accept key value with
  | error e => rfl
  | ok v =>
    cases key with
    | text name => exact congrArg (Except.ok ∘ Dictionary.mk) (putCell_of kind name v m.entries)
    | _ => rfl

theorem deleteItem_of (key : Value) :
    (of kind m).deleteItem key = (lookUp m key).map fun _ => of kind (remove m key) := by
  cases key with
  | text name =>
    rw [lookUp_text, NameMap.get?, deleteItem]
    simp only [nameOf, bind, Except.bind, cell?_of, cells_of, List.eraseP_map]
    cases m.find? name <;> rfl
  | _ => rfl

theorem holds_of (key : Value) : (of kind m).holds key = TextGrammar.holds m key := by
  cases key with
  | text name =>
    rw [holds, cell?_of, TextGrammar.holds, NameMap.contains_eq_isSome, NameMap.get?,
      Option.isSome_map, Option.isSome_map]
  | _ => rfl

theorem pop_of (key : Value) (other : Option Value) :
    (of kind m).pop key other
      = ((TextGrammar.perform kind m (.pop key other)).1,
          of kind (TextGrammar.perform kind m (.pop key other)).2) := by
  simp only [pop, TextGrammar.perform, getItem_of, deleteItem_of]
  cases lookUp m key with
  | ok v => rfl
  | error e => cases e <;> cases other <;> rfl

theorem update_of (pairs : List (Value × Value)) :
    (of kind m).update kind pairs
      = ((TextGrammar.perform kind m (.update pairs)).1,
          of kind (TextGrammar.perform kind m (.update pairs)).2) := by
  induction pairs generalizing m with
  | nil => rfl
  | cons pair pairs ih =>
    simp only [update, setItem_of]
    cases h : store kind m pair.1 pair.2 with
    | ok next =>
      simp only [Except.map, ih next, TextGrammar.perform, storeAll, h]
    | error e => simp only [Except.map, TextGrammar.perform, storeAll, h]

end Of

/-- The first key is always found at the first cell. -/
theorem popFirst_of_cons (kind : Admission V) (e : Text × V) (rest : List (Text × V)) :
    (of kind ⟨e :: rest⟩).popFirst = (.ok (.text e.1, kind.toValue e.2), of kind ⟨rest⟩) := by
  rw [popFirst, keys_of, List.map_cons]
  simp only [pop_of, perform_pop_of_get? kind (NameMap.get?_first e rest), NameMap.erase_first]
  rfl

theorem popFirst_of (kind : Admission V) (m : NameMap V) :
    ((of kind m).popFirst.1.map fun first => .list [first.1, first.2], (of kind m).popFirst.2)
      = ((TextGrammar.perform kind m .popFirst).1,
          of kind (TextGrammar.perform kind m .popFirst).2) := by
  obtain ⟨entries⟩ := m
  cases entries with
  | nil => rfl
  | cons e rest =>
    rw [popFirst_of_cons]
    rfl

/-- A dictionary is empty when the first key can be popped no more. -/
theorem clear_of (kind : Admission V) (m : NameMap V) : (of kind m).clear = ∅ := by
  obtain ⟨entries⟩ := m
  -- Each round takes off the first entry, whatever the others are.
  induction entries with
  | nil =>
    rw [clear]
    rfl
  | cons e rest ih =>
    rw [clear_of_popFirst (popFirst_of_cons kind e rest), ih]

/-! ## Looking the listed keys up again -/

/-- When every key that is listed has the value of its own entry, so do all of them together. -/
theorem mapM_keys_of {α : Type} {kind : Admission V} {m : NameMap V}
    {look : Value → Except Refusal α} {found : Text × V → α}
    (h : ∀ e ∈ m.entries, look (.text e.1) = .ok (found e)) :
    (of kind m).keys.mapM look = .ok (m.entries.map found) := by
  obtain ⟨entries⟩ := m
  rw [keys_of]
  induction entries with
  | nil => rfl
  | cons e rest ih =>
    obtain ⟨he, hrest⟩ := List.forall_mem_cons.1 h
    rw [List.map_cons, List.mapM_cons, he, ih hrest]
    rfl

/-- This is where it matters that a map has one entry for each name: the cell that a listed key is
looked up at is its own. -/
theorem getItem_of_mem (kind : Admission V) {m : NameMap V} (h : m.WellFormed) {e : Text × V}
    (he : e ∈ m.entries) : (of kind m).getItem (.text e.1) = .ok (kind.toValue e.2) := by
  rw [getItem_of, lookUp_of_get? (h.get?_of_mem he)]
  rfl

theorem items_of (kind : Admission V) {m : NameMap V} (h : m.WellFormed) :
    (of kind m).items = .ok (itemsOf kind m.entries) :=
  mapM_keys_of fun e he => by rw [getItem_of_mem kind h he]; rfl

theorem values_of (kind : Admission V) {m : NameMap V} (h : m.WellFormed) :
    (of kind m).values = .ok (m.values.map kind.toValue) := by
  rw [NameMap.values, List.map_map]
  exact mapM_keys_of fun e he => getItem_of_mem kind h he

/-! ## Requests -/

/-- A request to the dictionary of a map is answered as it is by the map, and leaves the dictionary
of the map that is left. -/
theorem perform_of (kind : Admission V) {m : NameMap V} (h : m.WellFormed) (r : Request) :
    (of kind m).perform kind r
      = ((TextGrammar.perform kind m r).1, of kind (TextGrammar.perform kind m r).2) := by
  cases r with
  | set key value =>
    rw [perform, TextGrammar.perform, setItem_of]
    cases store kind m key value <;> rfl
  | get key => rw [perform, TextGrammar.perform, getItem_of]
  | getOr key other =>
    rw [perform, TextGrammar.perform, getItem_of]
    cases lookUp m key with
    | ok v => rfl
    | error e => cases e <;> rfl
  | delete key =>
    rw [perform, TextGrammar.perform, deleteItem_of]
    cases lookUp m key <;> rfl
  | contains key => rw [perform, TextGrammar.perform, holds_of]
  | size => rw [perform, TextGrammar.perform, cells_of, List.length_map]; rfl
  | nonempty => rw [perform, TextGrammar.perform, cells_of, List.isEmpty_map]
  | names => rw [perform, TextGrammar.perform, keys_of, NameMap.names, List.map_map]; rfl
  | values => rw [perform, TextGrammar.perform, values_of kind h]; rfl
  | pop key other => exact pop_of kind m key other
  | popFirst => exact popFirst_of kind m
  | clear => rw [perform, TextGrammar.perform, clear_of]; rfl
  | setDefault key value =>
    rw [perform, TextGrammar.perform, getItem_of, setItem_of]
    cases lookUp m key with
    | ok v => rfl
    | error e => cases e <;> cases store kind m key value <;> rfl
  | update pairs => exact update_of kind m pairs

/-- Requests lead to the dictionary of the map that they lead to, and are answered alike. -/
theorem runAll_perform_of (kind : Admission V) (requests : List Request) :
    runAll (perform kind) ∅ requests
      = ((runAll (TextGrammar.perform kind) ∅ requests).1,
          of kind (runAll (TextGrammar.perform kind) ∅ requests).2) :=
  runAll_represents (f := of kind) (P := NameMap.WellFormed)
    (fun _ r hm => perform_keeps kept_wellFormed kind hm r) (fun _ r hm => perform_of kind hm r)
    kept_wellFormed.empty requests

/-- Requests to an empty dictionary are answered as requests to an empty map are, refused ones among
them, and the dictionary that they lead to keeps the map that they lead to. Every cell stands under
the lower case of its own key, every key that is listed has the value that is listed with it, these
items give the dictionary again, and taking the first of them until none is left ends. The map is an
association list. -/
theorem runAll_refines (kind : Admission V) (requests : List Request) :
    let run := runAll (TextGrammar.perform kind) ∅ requests
    let kept := runAll (perform kind) ∅ requests
    kept = (run.1, of kind run.2)
      ∧ (∀ c ∈ kept.2.cells, ∃ name v, c = (Text.lower name, .text name, kind.toValue v))
      ∧ kept.2.items = .ok (itemsOf kind run.2.entries)
      ∧ update kind ∅ (itemsOf kind run.2.entries) = (.ok .null, kept.2)
      ∧ kept.2.clear = ∅
      ∧ AssociationList kind run.2 := by
  intro run kept
  have hrun : run.2.WellFormed := wellFormed_runAll kind requests
  have hlist : AssociationList kind run.2 := hrun.associationList kind
  have hkept : kept = (run.1, of kind run.2) := runAll_perform_of kind requests
  rw [hkept]
  refine ⟨rfl, fun c hc => ?_, items_of kind hrun, ?_, clear_of kind run.2, hlist⟩
  · obtain ⟨e, -, rfl⟩ := List.mem_map.1 hc
    exact ⟨e.1, e.2, rfl⟩
  · have hupdate := update_of kind ∅ (itemsOf kind run.2.entries)
    rwa [hlist.rebuilt] at hupdate

example : (runAll (TextGrammar.perform .anyValue) ∅
    [.set (.text "Hero".toList) (.integer 1), .set (.text "mood".toList) (.integer 2),
      .set (.text "HERO".toList) (.integer 3), .delete (.text "city".toList),
      .pop (.integer 7) none]).2.names = ["HERO".toList, "mood".toList] := by decide

end Dictionary

end TextGrammar
