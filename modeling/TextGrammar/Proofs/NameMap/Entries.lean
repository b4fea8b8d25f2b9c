import TextGrammar.NameMap
import Mathlib.Data.List.Nodup

/-!
# Entries and their places

A name that has an entry parts the entries of its map: those before it, its own, and those after it.
Writing the name replaces its own entry, removing it takes its own entry out, and the entries before
and after stay. A name without an entry is written behind all others.

## Main definitions

* `NameMap.Written` — what a map is after a name has been written.
* `NameMap.Without` — what a map is without one of its entries.

## Main results

* `NameMap.written_insert`, `NameMap.without_erase` — what writing and removing make of the entries.
* `NameMap.WellFormed.ofList_entries` — the entries of a map, written in their order, give the map.
-/

namespace TextGrammar

namespace NameMap

universe u

variable {V : Type u}

/-! ## Entries and their spellings -/

section Spellings

variable {m : NameMap V}

/-- No two entries of a map have one spelling. -/
theorem WellFormed.nodup_names (h : m.WellFormed) : m.names.Nodup :=
  List.pairwise_map.2 (h.imp fun hne heq => hne (congrArg Text.lower heq))

theorem WellFormed.nodup_entries (h : m.WellFormed) : m.entries.Nodup :=
  List.Nodup.of_map _ h.nodup_names

theorem WellFormed.eq_of_fst_eq (h : m.WellFormed) {e e' : Text × V} (he : e ∈ m.entries)
    (he' : e' ∈ m.entries) (hname : e.1 = e'.1) : e = e' :=
  List.inj_on_of_nodup_map h.nodup_names he he' hname

theorem WellFormed.filter_fst_eq (h : m.WellFormed) {e : Text × V} (he : e ∈ m.entries) :
    m.entries.filter (fun x => x.1 = e.1) = [e] := by
  refine List.perm_singleton.1 ((List.perm_ext_iff_of_nodup (h.nodup_entries.filter _)
    (List.nodup_singleton e)).2 fun x => ?_)
  rw [List.mem_filter, decide_eq_true_iff, List.mem_singleton]
  constructor
  · rintro ⟨hx, hname⟩
    exact h.eq_of_fst_eq hx he hname
  · rintro rfl
    exact ⟨he, rfl⟩

end Spellings

/-! ## Names that have no entry -/

theorem sameName_eq_false_iff (a b : Text) :
    Text.sameName a b = false ↔ Text.lower a ≠ Text.lower b := by
  rw [← Bool.not_eq_true, Text.sameName_iff]

theorem contains_eq_false_iff (m : NameMap V) (name : Text) :
    m.contains name = false ↔ ∀ e ∈ m.entries, Text.lower e.1 ≠ Text.lower name := by
  simp [contains]

theorem contains_eq_false_iff_get? (m : NameMap V) (name : Text) :
    m.contains name = false ↔ m.get? name = none := by
  rw [contains_eq_isSome, Option.isSome_eq_false_iff, Option.isNone_iff_eq_none]

theorem insertEntry_of_absent {name : Text} {value : V} {entries : List (Text × V)}
    (h : ∀ e ∈ entries, Text.lower e.1 ≠ Text.lower name) :
    insertEntry name value entries = entries ++ [(name, value)] := by
  induction entries with
  | nil => rfl
  | cons first rest ih =>
    obtain ⟨hfirst, hrest⟩ := List.forall_mem_cons.1 h
    rw [insertEntry, if_neg (by simpa using hfirst), ih hrest, List.cons_append]

/-! ## Names that have an entry -/

theorem exists_get?_of_contains {m : NameMap V} {name : Text} (h : m.contains name = true) :
    ∃ value, m.get? name = some value := by
  rwa [contains_eq_isSome, Option.isSome_iff_exists] at h

/-- A name that has an entry parts the entries at the first one of the name. -/
theorem exists_parts {m : NameMap V} {name : Text} (h : m.contains name = true) :
    ∃ before e after, m.entries = before ++ e :: after ∧ Text.lower e.1 = Text.lower name
      ∧ ∀ x ∈ before, Text.lower x.1 ≠ Text.lower name := by
  obtain ⟨e, he⟩ := Option.isSome_iff_exists.1 (List.find?_isSome.2 (List.any_eq_true.1 h))
  obtain ⟨hname, before, after, hentries, hbefore⟩ := List.find?_eq_some_iff_append.1 he
  refine ⟨before, e, after, hentries, (Text.sameName_iff _ _).1 hname, fun x hx => ?_⟩
  simpa [sameName_eq_false_iff] using hbefore x hx

section Parts

variable {name : Text} {before after : List (Text × V)} {e : Text × V}

/-- A name is looked up at its own entry. -/
theorem find?_parts (he : Text.lower e.1 = Text.lower name)
    (hbefore : ∀ x ∈ before, Text.lower x.1 ≠ Text.lower name) :
    (before ++ e :: after).find? (fun x => Text.sameName x.1 name) = some e := by
  refine List.find?_eq_some_iff_append.2 ⟨by simpa using he, before, after, rfl, fun x hx => ?_⟩
  simpa [sameName_eq_false_iff] using hbefore x hx

theorem insertEntry_parts (value : V) (he : Text.lower e.1 = Text.lower name)
    (hbefore : ∀ x ∈ before, Text.lower x.1 ≠ Text.lower name) :
    insertEntry name value (before ++ e :: after) = before ++ (name, value) :: after := by
  induction before with
  | nil => rw [List.nil_append, insertEntry, if_pos (by simpa using he), List.nil_append]
  | cons first rest ih =>
    obtain ⟨hfirst, hrest⟩ := List.forall_mem_cons.1 hbefore
    rw [List.cons_append, insertEntry, if_neg (by simpa using hfirst), ih hrest, List.cons_append]

theorem eraseP_parts (he : Text.lower e.1 = Text.lower name)
    (hbefore : ∀ x ∈ before, Text.lower x.1 ≠ Text.lower name) :
    (before ++ e :: after).eraseP (fun x => Text.sameName x.1 name) = before ++ after := by
  rw [List.eraseP_append_right _ (fun x hx => by simpa using hbefore x hx),
    List.eraseP_cons_of_pos (by simpa using he)]

end Parts

/-- The first entry is the one its own name is looked up at. -/
theorem get?_first (e : Text × V) (rest : List (Text × V)) :
    (⟨e :: rest⟩ : NameMap V).get? e.1 = some e.2 := by
  simp [get?, find?]

theorem erase_first (e : Text × V) (rest : List (Text × V)) :
    (⟨e :: rest⟩ : NameMap V).erase e.1 = ⟨rest⟩ :=
  congrArg NameMap.mk (List.eraseP_cons_of_pos (by simp))

/-! ## Writing and removing -/

/-- A map after a name has been written: its entry keeps its place and takes the new spelling, or is
a new one behind all others. -/
inductive Written (m : NameMap V) (name : Text) (value : V) : NameMap V → Prop
  /-- The name had an entry. -/
  | replaced {before after : List (Text × V)} {e : Text × V} (hm : m.entries = before ++ e :: after)
    (he : Text.lower e.1 = Text.lower name) :
    Written m name value ⟨before ++ (name, value) :: after⟩
  /-- The name had no entry. -/
  | appended (h : m.contains name = false) : Written m name value ⟨m.entries ++ [(name, value)]⟩

/-- The map `rest` is `m` without the entry `e`; all others stay in their order. -/
def Without (m : NameMap V) (e : Text × V) (rest : NameMap V) : Prop :=
  ∃ before after, m.entries = before ++ e :: after ∧ rest.entries = before ++ after

theorem written_insert (m : NameMap V) (name : Text) (value : V) :
    m.Written name value (m.insert name value) := by
  cases h : m.contains name with
  | true =>
    obtain ⟨before, e, after, hm, he, hbefore⟩ := exists_parts h
    have hinsert : m.insert name value = ⟨before ++ (name, value) :: after⟩ := by
      rw [insert, hm, insertEntry_parts value he hbefore]
    rw [hinsert]
    exact .replaced hm he
  | false =>
    have hinsert : m.insert name value = ⟨m.entries ++ [(name, value)]⟩ := by
      rw [insert, insertEntry_of_absent ((contains_eq_false_iff m name).1 h)]
    rw [hinsert]
    exact .appended h

/-- The entry that a name is looked up at is the one that is removed. -/
theorem without_erase {m : NameMap V} {name : Text} {value : V} (h : m.get? name = some value) :
    ∃ e, Text.lower e.1 = Text.lower name ∧ e.2 = value ∧ m.Without e (m.erase name) := by
  obtain ⟨before, e, after, hm, he, hbefore⟩ := exists_parts (contains_of_get? h)
  refine ⟨e, he, ?_, before, after, hm, ?_⟩
  · rw [get?, find?, hm, find?_parts he hbefore] at h
    exact Option.some_inj.1 h
  · rw [erase, hm, eraseP_parts he hbefore]

/-! ## Writing the entries of a map again -/

/-- Entries of new names, no two of one name, are written behind all others in their order. -/
theorem insertAll_of_pairwise (entries more : List (Text × V))
    (h : (entries ++ more).Pairwise fun a b => Text.lower a.1 ≠ Text.lower b.1) :
    insertAll ⟨entries⟩ more = ⟨entries ++ more⟩ := by
  induction more generalizing entries with
  | nil => rw [List.append_nil]; rfl
  | cons e more ih =>
    have hfresh : ∀ x ∈ entries, Text.lower x.1 ≠ Text.lower e.1 := fun x hx =>
      (List.pairwise_append.1 h).2.2 x hx e List.mem_cons_self
    have hwrite : insert ⟨entries⟩ e.1 e.2 = ⟨entries ++ [e]⟩ := by
      rw [insert, insertEntry_of_absent hfresh]
    rw [List.append_cons] at h ⊢
    calc insertAll ⟨entries⟩ (e :: more)
        = insertAll (insert ⟨entries⟩ e.1 e.2) more := rfl
      _ = insertAll ⟨entries ++ [e]⟩ more := by rw [hwrite]
      _ = ⟨entries ++ [e] ++ more⟩ := ih (entries ++ [e]) h

/-- The entries of a map, written in their order, give the map. -/
theorem WellFormed.ofList_entries {m : NameMap V} (h : m.WellFormed) : ofList m.entries = m :=
  insertAll_of_pairwise [] m.entries h

end NameMap

end TextGrammar
