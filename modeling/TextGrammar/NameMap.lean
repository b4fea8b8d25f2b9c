import TextGrammar.Text.Case

/-!
# Maps keyed by names

Names are written in any case: two spellings with the same lower case are one name. A map lists its
entries in the order in which the names were first written, each under the spelling written last.
Rule tables, modifier registries, variables and the memories of selectors are all such maps.

## Main definitions

* `NameMap V` — entries of a spelling and a value, in order.
* `NameMap.get?`, `NameMap.insert`, `NameMap.erase` — look a name up, write it, remove it.
* `NameMap.WellFormed` — no two entries spell one name; every operation keeps it.
-/

namespace TextGrammar

universe u

/-- Entries of a spelling and a value, in the order in which their names were first written. -/
structure NameMap (V : Type u) where
  entries : List (Text × V) := []

namespace NameMap

variable {V : Type u}

instance : EmptyCollection (NameMap V) := ⟨⟨[]⟩⟩

instance : Inhabited (NameMap V) := ⟨∅⟩

def names (m : NameMap V) : List Text := m.entries.map (·.1)

def values (m : NameMap V) : List V := m.entries.map (·.2)

def size (m : NameMap V) : Nat := m.entries.length

def find? (m : NameMap V) (name : Text) : Option (Text × V) :=
  m.entries.find? fun e => Text.sameName e.1 name

def get? (m : NameMap V) (name : Text) : Option V := (m.find? name).map (·.2)

def contains (m : NameMap V) (name : Text) : Bool :=
  m.entries.any fun e => Text.sameName e.1 name

/-- Writes a value into a list of entries: an existing entry keeps its place and takes the new
spelling, a new one comes last. -/
def insertEntry (name : Text) (value : V) : List (Text × V) → List (Text × V)
  | [] => [(name, value)]
  | e :: rest =>
    if Text.sameName e.1 name then (name, value) :: rest else e :: insertEntry name value rest

/-- Writes the value of a name: an existing entry keeps its place and takes the new spelling, a new
one comes last. -/
def insert (m : NameMap V) (name : Text) (value : V) : NameMap V :=
  ⟨insertEntry name value m.entries⟩

def erase (m : NameMap V) (name : Text) : NameMap V :=
  ⟨m.entries.eraseP fun e => Text.sameName e.1 name⟩

def popFirst? (m : NameMap V) : Option ((Text × V) × NameMap V) :=
  match m.entries with
  | [] => none
  | e :: rest => some (e, ⟨rest⟩)

/-- Writes entries one after the other. -/
def insertAll (m : NameMap V) (entries : List (Text × V)) : NameMap V :=
  entries.foldl (fun m e => m.insert e.1 e.2) m

/-- The map of entries written one after the other. -/
def ofList (entries : List (Text × V)) : NameMap V := insertAll ∅ entries

/-- No two entries spell one name. -/
def WellFormed (m : NameMap V) : Prop :=
  m.entries.Pairwise fun a b => Text.lower a.1 ≠ Text.lower b.1

/-! ## What each operation shows -/

@[simp] theorem entries_empty : (∅ : NameMap V).entries = [] := rfl

@[simp] theorem get?_empty (name : Text) : (∅ : NameMap V).get? name = none := rfl

@[simp] theorem entries_insert (m : NameMap V) (name : Text) (value : V) :
    (m.insert name value).entries = insertEntry name value m.entries := rfl

theorem contains_eq_isSome (m : NameMap V) (name : Text) :
    m.contains name = (m.get? name).isSome := by
  rw [Bool.eq_iff_iff]
  simp [contains, get?, find?]

/-- A value that is found is a value of the map. -/
theorem mem_values_of_get? {m : NameMap V} {name : Text} {value : V}
    (h : m.get? name = some value) : value ∈ m.values := by
  obtain ⟨e, he, rfl⟩ := Option.map_eq_some_iff.1 h
  exact List.mem_map_of_mem (List.mem_of_find?_eq_some he)

/-- Writing brings in no entry but the one written. -/
theorem mem_insertEntry {name : Text} {value : V} {entries : List (Text × V)} {e : Text × V}
    (h : e ∈ insertEntry name value entries) : e = (name, value) ∨ e ∈ entries := by
  induction entries with
  | nil => exact .inl (List.mem_singleton.1 h)
  | cons first rest ih =>
    rw [insertEntry] at h
    split at h
    · exact (List.mem_cons.1 h).imp id (List.mem_cons_of_mem first)
    · rcases List.mem_cons.1 h with rfl | h
      · exact .inr List.mem_cons_self
      · exact (ih h).imp id (List.mem_cons_of_mem first)

/-- Writing brings in no value but the one written. -/
theorem mem_values_insert {m : NameMap V} {name : Text} {value v : V}
    (h : v ∈ (m.insert name value).values) : v = value ∨ v ∈ m.values := by
  obtain ⟨e, he, rfl⟩ := List.mem_map.1 h
  rcases mem_insertEntry he with rfl | he
  · exact .inl rfl
  · exact .inr (List.mem_map_of_mem he)

/-- A written value is found under every spelling of its name. -/
theorem get?_insert_of_lower_eq (m : NameMap V) {name other : Text} (value : V)
    (h : Text.lower other = Text.lower name) : (m.insert name value).get? other = some value := by
  obtain ⟨entries⟩ := m
  simp only [get?, find?, entries_insert]
  induction entries with
  | nil => simp [insertEntry, h]
  | cons e rest ih =>
    by_cases hs : Text.lower e.1 = Text.lower name
    · simp [insertEntry, hs, h]
    · simpa [insertEntry, hs, h] using ih

/-- Writing a name does not change what any other name has. -/
theorem get?_insert_of_lower_ne (m : NameMap V) {name other : Text} (value : V)
    (h : Text.lower other ≠ Text.lower name) :
    (m.insert name value).get? other = m.get? other := by
  obtain ⟨entries⟩ := m
  simp only [get?, find?, entries_insert]
  induction entries with
  | nil => simp [insertEntry, Ne.symm h]
  | cons e rest ih =>
    by_cases hs : Text.lower e.1 = Text.lower name
    · simp [insertEntry, hs, Ne.symm h]
    · by_cases ho : Text.lower e.1 = Text.lower other
      · simp [insertEntry, ho, h]
      · simpa [insertEntry, hs, ho] using ih

/-- Removing a name does not change what any other name has. -/
theorem get?_erase_of_lower_ne (m : NameMap V) {name other : Text}
    (h : Text.lower other ≠ Text.lower name) : (m.erase name).get? other = m.get? other := by
  obtain ⟨entries⟩ := m
  simp only [get?, find?, erase]
  induction entries with
  | nil => rfl
  | cons e rest ih =>
    by_cases hs : Text.lower e.1 = Text.lower name
    · simp [hs, Ne.symm h]
    · by_cases ho : Text.lower e.1 = Text.lower other
      · simp [ho, h]
      · simpa [List.eraseP_cons, hs, ho] using ih

/-! ## Names and their entries -/

/-- Spellings of one name have one value. -/
theorem get?_congr (m : NameMap V) {name other : Text} (h : Text.lower other = Text.lower name) :
    m.get? other = m.get? name := by
  simp only [get?, find?, Text.sameName, h]

theorem contains_of_get? {m : NameMap V} {name : Text} {value : V} (h : m.get? name = some value) :
    m.contains name = true := by
  rw [contains_eq_isSome, h, Option.isSome_some]

theorem contains_congr (m : NameMap V) {name other : Text} (h : Text.lower other = Text.lower name) :
    m.contains other = m.contains name := by
  rw [contains_eq_isSome, contains_eq_isSome, get?_congr m h]

theorem contains_iff (m : NameMap V) (name : Text) :
    m.contains name = true ↔ ∃ e ∈ m.entries, Text.lower e.1 = Text.lower name := by
  simp [contains]

/-- A value that is found is the value of an entry of the name. -/
theorem exists_mem_of_get? {m : NameMap V} {name : Text} {value : V}
    (h : m.get? name = some value) :
    ∃ e ∈ m.entries, Text.lower e.1 = Text.lower name ∧ e.2 = value := by
  obtain ⟨e, he, rfl⟩ := Option.map_eq_some_iff.1 h
  have hname := List.find?_some he
  exact ⟨e, List.mem_of_find?_eq_some he, (Text.sameName_iff _ _).1 hname, rfl⟩

/-- When no two entries spell one name every entry is found. -/
theorem WellFormed.get?_of_mem {m : NameMap V} (h : m.WellFormed) {e : Text × V}
    (he : e ∈ m.entries) : m.get? e.1 = some e.2 := by
  obtain ⟨entries⟩ := m
  simp only [get?, find?]
  induction entries with
  | nil => cases he
  | cons first rest ih =>
    obtain ⟨hfirst, hrest⟩ := List.pairwise_cons.1 h
    rcases List.mem_cons.1 he with rfl | he
    · simp
    · simpa [hfirst e he] using ih hrest he

/-- The order of entries does not matter for there being one for each name. -/
theorem WellFormed.of_perm {m other : NameMap V} (h : m.WellFormed)
    (hperm : m.entries.Perm other.entries) : other.WellFormed :=
  h.perm hperm fun hne => Ne.symm hne

/-- Maps with the same entries have the same values, in whatever order the entries stand. -/
theorem WellFormed.get?_eq_of_perm {m other : NameMap V} (h : m.WellFormed)
    (hperm : m.entries.Perm other.entries) (name : Text) : other.get? name = m.get? name := by
  cases hget : m.get? name with
  | some value =>
    obtain ⟨e, he, hname, rfl⟩ := exists_mem_of_get? hget
    rw [get?_congr other hname.symm]
    exact (h.of_perm hperm).get?_of_mem (hperm.mem_iff.1 he)
  | none =>
    refine Option.eq_none_iff_forall_ne_some.2 fun value hvalue => ?_
    obtain ⟨e, he, hname, rfl⟩ := exists_mem_of_get? hvalue
    rw [get?_congr m hname.symm, h.get?_of_mem (hperm.mem_iff.2 he)] at hget
    cases hget

/-- Writing a name leaves one entry for it. -/
theorem WellFormed.insert {m : NameMap V} (h : m.WellFormed) (name : Text) (value : V) :
    (m.insert name value).WellFormed := by
  obtain ⟨entries⟩ := m
  rw [WellFormed, entries_insert]
  induction entries with
  | nil => exact List.pairwise_singleton _ _
  | cons first rest ih =>
    obtain ⟨hfirst, hrest⟩ := List.pairwise_cons.1 h
    rw [insertEntry]
    split
    · rename_i hs
      rw [Text.sameName_iff] at hs
      refine List.pairwise_cons.2 ⟨fun e he => ?_, hrest⟩
      exact fun heq => hfirst e he (hs.trans heq)
    · rename_i hs
      rw [Text.sameName_iff] at hs
      refine List.pairwise_cons.2 ⟨fun e he => ?_, ih hrest⟩
      rcases mem_insertEntry he with rfl | he
      · exact hs
      · exact hfirst e he

/-- Entries written one after the other leave one entry for each name. -/
theorem WellFormed.insertAll {m : NameMap V} (h : m.WellFormed) (entries : List (Text × V)) :
    (m.insertAll entries).WellFormed := by
  induction entries generalizing m with
  | nil => exact h
  | cons e rest ih => exact ih (h.insert e.1 e.2)

/-- Removing a name leaves one entry for each of the others. -/
theorem WellFormed.erase {m : NameMap V} (h : m.WellFormed) (name : Text) :
    (m.erase name).WellFormed :=
  List.Pairwise.sublist List.eraseP_sublist h

/-- A removed name is not found under any spelling. -/
theorem WellFormed.get?_erase {m : NameMap V} (h : m.WellFormed) {name other : Text}
    (hother : Text.lower other = Text.lower name) : (m.erase name).get? other = none := by
  obtain ⟨entries⟩ := m
  simp only [get?, find?, NameMap.erase, Option.map_eq_none_iff]
  induction entries with
  | nil => rfl
  | cons e rest ih =>
    obtain ⟨hfirst, hrest⟩ := List.pairwise_cons.1 h
    by_cases hs : Text.lower e.1 = Text.lower name
    · have hnone : ∀ x ∈ rest, ¬ Text.lower x.1 = Text.lower other :=
        fun x hx hlower => hfirst x hx (hs.trans (hother.symm.trans hlower.symm))
      simpa [hs] using hnone
    · simpa [hs, hother] using ih hrest

theorem wellFormed_ofList (entries : List (Text × V)) : (ofList entries).WellFormed :=
  WellFormed.insertAll List.Pairwise.nil entries

/-- Entries written one after the other bring in no other entry. -/
theorem mem_of_mem_insertAll {m : NameMap V} {entries : List (Text × V)} {e : Text × V}
    (h : e ∈ (m.insertAll entries).entries) : e ∈ entries ∨ e ∈ m.entries := by
  induction entries generalizing m with
  | nil => exact .inr h
  | cons first rest ih =>
    rcases ih h with hrest | hm
    · exact .inl (List.mem_cons_of_mem first hrest)
    · rcases mem_insertEntry hm with rfl | hm
      · exact .inl List.mem_cons_self
      · exact .inr hm

theorem mem_of_mem_ofList {entries : List (Text × V)} {e : Text × V}
    (h : e ∈ (ofList entries).entries) : e ∈ entries :=
  (mem_of_mem_insertAll h).resolve_right List.not_mem_nil

end NameMap

end TextGrammar
