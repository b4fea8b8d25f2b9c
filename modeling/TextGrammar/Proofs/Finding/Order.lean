import TextGrammar.Finding
import Mathlib.Data.Char
import Mathlib.Data.List.Lex
import Mathlib.Data.Prod.Lex

/-!
# Findings in order

Findings are sorted by file, then path, then code, in the dictionary order of texts. Sorting is
stable: the findings with one key keep the order in which they were found. So a sorted list is
determined by its findings of each key.

## Main definitions

* `Finding.key` — what findings are sorted by.

## Main results

* `Finding.isLE_compare_iff` — findings compare as their keys do.
* `Finding.pairwise_sort` — sorting puts the keys in order.
* `Finding.filter_sort` — sorting keeps the order of findings with one key.
* `Finding.eq_of_filter_key_eq` — sorted lists with the same findings of each key are equal.
-/

namespace TextGrammar

namespace Text

/-- A text that compares as less comes first in the dictionary order. -/
theorem compare_eq_lt_iff (s t : Text) : compare s t = .lt ↔ s < t := by
  induction s generalizing t with
  | nil => cases t <;> simp [compare]
  | cons a s ih =>
    cases t with
    | nil => simp [compare]
    | cons b t =>
      rw [compare, Ordering.then_eq_lt, Nat.compare_eq_lt, Nat.compare_eq_eq, ih,
        List.cons_lt_cons_iff, Char.toNat_inj]
      rfl

theorem isLE_compare_iff (s t : Text) : (compare s t).isLE = true ↔ s ≤ t := by
  have heq : compare s t = .eq ↔ s = t := ⟨eq_of_compare, fun h => h ▸ compare_self t⟩
  rw [le_iff_lt_or_eq, ← compare_eq_lt_iff, ← heq]
  cases compare s t <;> simp

end Text

namespace Finding

/-- What findings are sorted by: the file, then the path, then the code; a missing one is like an
empty one. -/
def key (f : Finding) : Text ×ₗ Text ×ₗ Text :=
  toLex (f.file.getD [], toLex (f.path.getD [], f.code))

/-- Findings compare as their keys do. -/
theorem isLE_compare_iff (f g : Finding) : (compare f g).isLE = true ↔ f.key ≤ g.key := by
  have heq : ∀ s t : Text, Text.compare s t = .eq ↔ s = t :=
    fun s t => ⟨Text.eq_of_compare, fun h => h ▸ Text.compare_self t⟩
  rw [compare, key, key, Prod.Lex.toLex_le_toLex, Prod.Lex.toLex_le_toLex,
    Ordering.isLE_then_iff_or, Ordering.isLE_then_iff_or, Text.isLE_compare_iff]
  simp only [Text.compare_eq_lt_iff, heq]

theorem isLE_compare_trans (f g h : Finding) (hfg : (compare f g).isLE = true)
    (hgh : (compare g h).isLE = true) : (compare f h).isLE = true := by
  rw [isLE_compare_iff] at *
  exact le_trans hfg hgh

theorem isLE_compare_total (f g : Finding) :
    ((compare f g).isLE || (compare g f).isLE) = true := by
  rw [Bool.or_eq_true, isLE_compare_iff, isLE_compare_iff]
  exact le_total f.key g.key

/-! ## Sorting -/

theorem sort_perm (findings : List Finding) : (sort findings).Perm findings :=
  List.mergeSort_perm findings _

/-- Sorting puts the keys in order. -/
theorem pairwise_sort (findings : List Finding) :
    (sort findings).Pairwise fun f g => f.key ≤ g.key :=
  (List.pairwise_mergeSort isLE_compare_trans isLE_compare_total findings).imp
    fun h => (isLE_compare_iff _ _).1 h

/-- Sorting keeps the order of findings with one key. -/
theorem filter_sort {p : Finding → Bool} {findings : List Finding}
    (hp : ∀ f ∈ findings, ∀ g ∈ findings, p f = true → p g = true → f.key = g.key) :
    (sort findings).filter p = findings.filter p := by
  have hle : (findings.filter p).Pairwise fun f g => (compare f g).isLE = true := by
    refine List.pairwise_of_forall_mem_list fun f hf g hg => (isLE_compare_iff f g).2 ?_
    obtain ⟨hf, hpf⟩ := List.mem_filter.1 hf
    obtain ⟨hg, hpg⟩ := List.mem_filter.1 hg
    exact (hp f hf g hg hpf hpg).le
  -- The sort is stable: what is in order already is found in it as it is.
  have hstable : (findings.filter p).Sublist (sort findings) :=
    List.sublist_mergeSort isLE_compare_trans isLE_compare_total hle List.filter_sublist
  have hsub : (findings.filter p).Sublist ((sort findings).filter p) := by
    simpa using hstable.filter p
  have hlength := ((sort_perm findings).filter p).length_eq
  exact (hsub.eq_of_length hlength.symm).symm

theorem mem_iff_of_filter_key_eq {l l' : List Finding}
    (h : ∀ k, l.filter (fun f => f.key = k) = l'.filter fun f => f.key = k) (f : Finding) :
    f ∈ l ↔ f ∈ l' := by
  have hf := congrArg (f ∈ ·) (h f.key)
  simpa using hf

/-- Sorted lists that hold the same findings of each key, in the same order, are equal. -/
theorem eq_of_filter_key_eq {l l' : List Finding} (hl : l.Pairwise fun f g => f.key ≤ g.key)
    (hl' : l'.Pairwise fun f g => f.key ≤ g.key)
    (h : ∀ k, l.filter (fun f => f.key = k) = l'.filter fun f => f.key = k) : l = l' := by
  have hmem := mem_iff_of_filter_key_eq h
  induction l generalizing l' with
  | nil => exact (List.eq_nil_iff_forall_not_mem.2 fun f hf => by simpa using (hmem f).2 hf).symm
  | cons f l ih =>
    cases l' with
    | nil => simpa using (hmem f).1 List.mem_cons_self
    | cons g l' =>
      obtain ⟨hfirst, hrest⟩ := List.pairwise_cons.1 hl
      obtain ⟨hfirst', hrest'⟩ := List.pairwise_cons.1 hl'
      -- Both first findings have the least key, so they are the first findings of that key.
      have hfg : f.key ≤ g.key := by
        rcases List.mem_cons.1 ((hmem g).2 List.mem_cons_self) with rfl | hg
        · exact le_rfl
        · exact hfirst g hg
      have hgf : g.key ≤ f.key := by
        rcases List.mem_cons.1 ((hmem f).1 List.mem_cons_self) with rfl | hf
        · exact le_rfl
        · exact hfirst' f hf
      have hkey : g.key = f.key := le_antisymm hgf hfg
      obtain rfl : f = g := by
        have hheads := h f.key
        rw [List.filter_cons_of_pos (by simp), List.filter_cons_of_pos (by simp [hkey])] at hheads
        exact (List.cons_eq_cons.1 hheads).1
      have htails : ∀ k, l.filter (fun f => f.key = k) = l'.filter fun f => f.key = k := by
        intro k
        have hk := h k
        by_cases hfk : f.key = k <;> simpa [hfk] using hk
      exact congrArg (f :: ·) (ih hrest hrest' htails (mem_iff_of_filter_key_eq htails))

end Finding

end TextGrammar
