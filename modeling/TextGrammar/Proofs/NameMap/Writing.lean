import TextGrammar.NameMap

/-!
# Maps after a sequence of writes

When entries are written one after the other, the last write of a name decides its entry. A name
that the map had before keeps its place, the others follow in the order in which they were first
written, and what is not written stays as it is.

## Main definitions

* `NameMap.lastWrite` — the last write of a name, in a sequence of writes.
* `NameMap.Updated` — what a map is after a sequence of writes, told by its entries.

## Main results

* `NameMap.updated_insertAll` — writing entries one after the other updates a map.
* `NameMap.Updated.eq_insertAll` — a map with one entry for each name is updated in one way only.
-/

namespace TextGrammar

namespace NameMap

universe u v

variable {V : Type u} {W : Type v}

/-! ## The last write of a name -/

/-- The spelling and the value that are written last for a name. -/
def lastWrite (writes : List (Text × V)) (name : Text) : Option (Text × V) :=
  writes.reverse.find? fun w => Text.sameName w.1 name

/-- A later write of a name counts instead of an earlier one. -/
theorem lastWrite_cons (w : Text × V) (writes : List (Text × V)) (name : Text) :
    lastWrite (w :: writes) name
      = (lastWrite writes name).or (if Text.sameName w.1 name then some w else none) := by
  rw [lastWrite, List.reverse_cons, List.find?_append, List.find?_singleton]
  rfl

/-- Spellings of one name have one last write. -/
theorem lastWrite_congr (writes : List (Text × V)) {name other : Text}
    (h : Text.lower other = Text.lower name) : lastWrite writes other = lastWrite writes name := by
  simp only [lastWrite, Text.sameName, h]

theorem lastWrite_eq_none_iff {writes : List (Text × V)} {name : Text} :
    lastWrite writes name = none ↔ ∀ w ∈ writes, Text.lower w.1 ≠ Text.lower name := by
  simp [lastWrite]

/-- A write that changes the values changes the last one. -/
theorem lastWrite_map (f : V → W) (writes : List (Text × V)) (name : Text) :
    lastWrite (writes.map fun w => (w.1, f w.2)) name
      = (lastWrite writes name).map fun w => (w.1, f w.2) := by
  rw [lastWrite, ← List.map_reverse, List.find?_map]
  rfl

/-! ## One write -/

/-- The names in a list of entries, each in lower case. -/
def keys (entries : List (Text × V)) : List Text := entries.map fun e => Text.lower e.1

@[simp] theorem keys_cons (e : Text × V) (entries : List (Text × V)) :
    keys (e :: entries) = Text.lower e.1 :: keys entries := rfl

/-- A written name has the entry that was written, and every other name the one it had. -/
theorem find?_insert (m : NameMap V) (name : Text) (value : V) (other : Text) :
    (m.insert name value).find? other
      = if Text.sameName name other then some (name, value) else m.find? other := by
  obtain ⟨entries⟩ := m
  simp only [find?, entries_insert]
  induction entries with
  | nil => rw [insertEntry, List.find?_singleton, List.find?_nil]
  | cons e rest ih =>
    by_cases he : Text.lower e.1 = Text.lower name
    · by_cases ho : Text.lower name = Text.lower other <;> simp [insertEntry, he, ho]
    · by_cases ho : Text.lower e.1 = Text.lower other
      · have hne : ¬ Text.lower name = Text.lower other := fun h => he (ho.trans h.symm)
        simp [insertEntry, ho, hne, Ne.symm hne]
      · simpa [insertEntry, he, ho] using ih

/-- A write changes no entry of another name. -/
theorem filter_insertEntry {p : Text × V → Bool} {name : Text} {value : V}
    (hp : ∀ e, Text.lower e.1 = Text.lower name → p e = false) (entries : List (Text × V)) :
    (insertEntry name value entries).filter p = entries.filter p := by
  have hwritten : p (name, value) = false := hp (name, value) rfl
  induction entries with
  | nil => simp [insertEntry, hwritten]
  | cons e rest ih =>
    by_cases he : Text.lower e.1 = Text.lower name
    · simp [insertEntry, he, hwritten, hp e he]
    · simp [insertEntry, he, List.filter_cons, ih]

/-- A name keeps its place, and a new one comes last. -/
theorem keys_insertEntry (name : Text) (value : V) (entries : List (Text × V)) :
    keys (insertEntry name value entries)
      = if Text.lower name ∈ keys entries then keys entries
        else keys entries ++ [Text.lower name] := by
  induction entries with
  | nil => rfl
  | cons e rest ih =>
    by_cases he : Text.lower e.1 = Text.lower name
    · simp [insertEntry, he]
    · have htail : keys (insertEntry name value (e :: rest))
          = Text.lower e.1 :: keys (insertEntry name value rest) := by simp [insertEntry, he]
      rw [htail, ih]
      by_cases hn : Text.lower name ∈ keys rest <;> simp [hn, Ne.symm he]

/-! ## Any number of writes -/

@[simp] theorem insertAll_nil (m : NameMap V) : m.insertAll [] = m := rfl

@[simp] theorem insertAll_cons (m : NameMap V) (w : Text × V) (writes : List (Text × V)) :
    m.insertAll (w :: writes) = (m.insert w.1 w.2).insertAll writes := rfl

theorem insertAll_concat (m : NameMap V) (writes : List (Text × V)) (w : Text × V) :
    m.insertAll (writes ++ [w]) = (m.insertAll writes).insert w.1 w.2 :=
  List.foldl_append

theorem find?_insertAll (m : NameMap V) (writes : List (Text × V)) (name : Text) :
    (m.insertAll writes).find? name = (lastWrite writes name).or (m.find? name) := by
  induction writes generalizing m with
  | nil => rfl
  | cons w writes ih =>
    rw [insertAll_cons, ih, find?_insert, lastWrite_cons, Option.or_assoc]
    split <;> rfl

theorem filter_insertAll {p : Text × V → Bool} {writes : List (Text × V)}
    (hp : ∀ w ∈ writes, ∀ e, Text.lower e.1 = Text.lower w.1 → p e = false) (m : NameMap V) :
    (m.insertAll writes).entries.filter p = m.entries.filter p := by
  induction writes generalizing m with
  | nil => rfl
  | cons w writes ih =>
    obtain ⟨hw, hwrites⟩ := List.forall_mem_cons.1 hp
    rw [insertAll_cons, ih hwrites, entries_insert, filter_insertEntry hw]

/-- The names that are new to a map, in the order in which they are first written. -/
def newKeys (m : NameMap V) (writes : List (Text × V)) : List Text :=
  ((keys writes).filter fun name => name ∉ keys m.entries).eraseDups

theorem newKeys_cons_of_mem {m : NameMap V} {w : Text × V} (writes : List (Text × V))
    (h : Text.lower w.1 ∈ keys m.entries) : m.newKeys (w :: writes) = m.newKeys writes := by
  rw [newKeys, keys_cons, List.filter_cons_of_neg (by simpa using h), newKeys]

theorem newKeys_cons_of_not_mem {m : NameMap V} {w : Text × V} (writes : List (Text × V))
    (h : Text.lower w.1 ∉ keys m.entries) :
    m.newKeys (w :: writes) = Text.lower w.1 :: (m.insert w.1 w.2).newKeys writes := by
  have hkeys : keys (m.insert w.1 w.2).entries = keys m.entries ++ [Text.lower w.1] := by
    rw [entries_insert, keys_insertEntry, if_neg h]
  rw [newKeys, keys_cons, List.filter_cons_of_pos (by simpa using h),
    List.eraseDups_cons, List.filter_filter, newKeys, hkeys]
  congr 3
  funext name
  rw [Bool.eq_iff_iff]
  simp [and_comm]

theorem keys_insertAll (m : NameMap V) (writes : List (Text × V)) :
    keys (m.insertAll writes).entries = keys m.entries ++ m.newKeys writes := by
  induction writes generalizing m with
  | nil => exact (List.append_nil _).symm
  | cons w writes ih =>
    rw [insertAll_cons, ih, entries_insert, keys_insertEntry]
    by_cases hw : Text.lower w.1 ∈ keys m.entries
    · have hnew : (m.insert w.1 w.2).newKeys writes = m.newKeys writes := by
        rw [newKeys, entries_insert, keys_insertEntry, if_pos hw, newKeys]
      rw [if_pos hw, hnew, newKeys_cons_of_mem writes hw]
    · rw [if_neg hw, newKeys_cons_of_not_mem writes hw, List.append_assoc, List.singleton_append]

/-! ## Updated maps -/

/-- The map `last` is the map `first` after `writes`. -/
structure Updated (first : NameMap V) (writes : List (Text × V)) (last : NameMap V) : Prop where
  /-- A written name has the value written last, under the spelling written last. -/
  written : ∀ ⦃name : Text⦄ ⦃w : Text × V⦄,
    lastWrite writes name = some w → last.find? name = some w
  /-- Names keep their places, and new ones follow in the order in which they were first written. -/
  places : keys last.entries = keys first.entries ++ first.newKeys writes
  /-- No other entry changes. -/
  others : (last.entries.filter fun e => (lastWrite writes e.1).isNone)
    = first.entries.filter fun e => (lastWrite writes e.1).isNone

/-- Entries written one after the other update a map. -/
theorem updated_insertAll (m : NameMap V) (writes : List (Text × V)) :
    m.Updated writes (m.insertAll writes) where
  written := by
    intro name w hw
    rw [find?_insertAll, hw, Option.some_or]
  places := keys_insertAll m writes
  others := by
    refine filter_insertAll (fun w hw e he => ?_) m
    rw [Option.isNone_eq_false_iff, Option.isSome_iff_ne_none]
    exact fun hnone => lastWrite_eq_none_iff.1 hnone w hw he.symm

example : ((ofList [("Hero".toList, 1), ("mood".toList, 2)]).insertAll
    [("city".toList, 3), ("HERO".toList, 4), ("City".toList, 5)]).entries
      = [("HERO".toList, 4), ("mood".toList, 2), ("City".toList, 5)] := by decide

/-- Maps with one entry for each name are equal when they list the same names in the same order and
have the same entries. -/
theorem eq_of_find?_eq {m m' : NameMap V} (hm : m.WellFormed)
    (hkeys : keys m'.entries = keys m.entries) (hfind : ∀ name, m'.find? name = m.find? name) :
    m' = m := by
  obtain ⟨entries⟩ := m
  obtain ⟨entries'⟩ := m'
  simp only [find?, WellFormed] at *
  congr 1
  induction entries generalizing entries' with
  | nil => exact List.map_eq_nil_iff.1 hkeys
  | cons e rest ih =>
    obtain ⟨e', rest', rfl⟩ : ∃ e' rest', entries' = e' :: rest' :=
      List.exists_cons_of_ne_nil fun h => by rw [h] at hkeys; cases hkeys
    obtain ⟨hname, hrest⟩ := List.cons_eq_cons.1 hkeys
    obtain ⟨hfirst, hpairwise⟩ := List.pairwise_cons.1 hm
    obtain rfl : e' = e := by simpa [hname] using hfind e.1
    refine congrArg (e' :: ·) (ih hpairwise rest' hrest fun name => ?_)
    by_cases hn : Text.lower e'.1 = Text.lower name
    · -- A name that the first entry spells has no other entry.
      have hnone : ∀ l : List (Text × V), keys l = keys rest →
          l.find? (fun x => Text.sameName x.1 name) = none := by
        intro l hl
        refine List.find?_eq_none.2 fun x hx hsame => ?_
        have hmem : Text.lower x.1 ∈ keys rest := hl ▸ List.mem_map_of_mem hx
        obtain ⟨y, hy, hxy⟩ := List.mem_map.1 hmem
        exact hfirst y hy (hn.trans (((Text.sameName_iff _ _).1 hsame).symm.trans hxy.symm))
      rw [hnone rest' hrest, hnone rest rfl]
    · simpa [hn] using hfind name

/-- A name that is not written has the entry that it had. -/
theorem Updated.find?_of_not_written {first last : NameMap V} {writes : List (Text × V)}
    (h : first.Updated writes last) {name : Text} (hname : lastWrite writes name = none) :
    last.find? name = first.find? name := by
  -- Only entries that are not written can have the name.
  have hfilter : ∀ m : NameMap V, m.find? name
      = (m.entries.filter fun e => (lastWrite writes e.1).isNone).find?
          fun e => Text.sameName e.1 name := by
    intro m
    rw [List.find?_filter, find?]
    congr 1
    funext e
    rw [Bool.eq_iff_iff, decide_eq_true_iff, iff_and_self, Text.sameName_iff]
    intro he
    rw [lastWrite_congr writes he, hname, Option.isNone_none]
  rw [hfilter last, h.others, ← hfilter first]

/-- A map with one entry for each name is updated in one way only. -/
theorem Updated.eq_insertAll {first last : NameMap V} {writes : List (Text × V)}
    (h : first.Updated writes last) (hfirst : first.WellFormed) :
    last = first.insertAll writes := by
  have hall := updated_insertAll first writes
  refine eq_of_find?_eq (hfirst.insertAll writes) (h.places.trans hall.places.symm) fun name => ?_
  cases hname : lastWrite writes name with
  | none => rw [h.find?_of_not_written hname, hall.find?_of_not_written hname]
  | some w => rw [h.written hname, hall.written hname]

end NameMap

end TextGrammar
