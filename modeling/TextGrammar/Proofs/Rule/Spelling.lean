import TextGrammar.Proofs.Rule.WellFormed
import TextGrammar.Text.Case

/-!
# Spellings of a name

Names are the same when they have the same lower case. Lower case neither makes nor unmakes a
character that ends a name in a rule, and leaves nothing of no character. So a reference can be made
of a name in every spelling or in none.

## Main definitions

* `delimiters` — the characters that end a name in a rule.

## Main results

* `Text.mem_lower_iff` — a text holds the delimiters that its lower case holds.
* `symbolName_congr` — a reference can be made of all spellings of a name or of none.
-/

namespace TextGrammar

/-- The characters that end a name in a rule. -/
def delimiters : List Char := ['#', '[', '.']

/-! ## Characters -/

theorem toNat_ofNat_cases (n : Nat) : (Char.ofNat n).toNat = n ∨ (Char.ofNat n).toNat = 0 := by
  by_cases h : n.isValidChar
  · rw [Char.ofNat, dif_pos h]
    exact .inl rfl
  · rw [Char.ofNat, dif_neg h]
    exact .inr rfl

/-- A character of the ASCII range is its own lower case, or a capital letter whose lower case lies
behind all capital letters. -/
theorem toLower_cases (c : Char) :
    c.toLower = c ∨ c.isUpper = true ∧ 97 ≤ c.toLower.toNat := by
  unfold Char.toLower
  split
  · rename_i h
    refine .inr ⟨decide_eq_true h, ?_⟩
    obtain ⟨hlow, hhigh⟩ := h
    have hfirst : 'A'.val.toNat = 65 := rfl
    have hlast : 'Z'.val.toNat = 90 := rfl
    have hshift : ('a'.val - 'A'.val).toNat = 32 := rfl
    simp only [ge_iff_le, UInt32.le_iff_toNat_le] at hlow hhigh
    simp only [Char.toNat, UInt32.toNat_add]
    omega
  · exact .inl rfl

section Delimiters

variable {c : Char}

/-- Delimiters lie in front of the small letters, and are no capital letters. -/
theorem of_mem_delimiters (hc : c ∈ delimiters) :
    0 < c.toNat ∧ c.toNat < 0x5C ∧ c.isUpper = false ∧ c ≠ 'Σ' ∧ c ≠ 'σ' ∧ c ≠ 'ς' := by
  simp only [delimiters, List.mem_cons, List.not_mem_nil, or_false] at hc
  rcases hc with rfl | rfl | rfl <;> decide +kernel

/-- No code behind the capital letters is that of a delimiter. -/
theorem ne_ofNat_of_mem_delimiters (hc : c ∈ delimiters) {n : Nat} (hn : 0x5C ≤ n) :
    c ≠ Char.ofNat n := by
  obtain ⟨hpos, hlt, -⟩ := of_mem_delimiters hc
  have hcode := toNat_ofNat_cases n
  intro h
  rw [← h] at hcode
  omega

/-- A character above the ASCII range has no delimiter in its lower case. -/
theorem not_mem_caseImage (hc : c ∈ delimiters) {d : Char} (hd : 128 ≤ d.toNat) :
    c ∉ caseImage lowerExpansions lowerRuns d := by
  have hexpansions : ∀ e ∈ lowerExpansions, ∀ n ∈ e.2, 0x5C ≤ n := by decide
  have hruns : lowerRuns.all (0x5C ≤ ·.target) = true := by decide +kernel
  intro hmem
  unfold caseImage at hmem
  split at hmem
  · rename_i n image h
    obtain ⟨code, hcode, heq⟩ := List.mem_map.1 hmem
    have hle := hexpansions (n, image) (List.mem_of_find?_eq_some h) code hcode
    exact ne_ofNat_of_mem_delimiters hc hle heq.symm
  · split at hmem
    · rename_i image h
      obtain ⟨run, hrun, himage⟩ := List.exists_of_findSome?_eq_some h
      have htarget := of_decide_eq_true (List.all_eq_true.1 hruns run hrun)
      simp only [CaseRun.image?, Option.ite_none_right_eq_some, Option.some.injEq] at himage
      exact ne_ofNat_of_mem_delimiters hc (by omega) (List.mem_singleton.1 hmem)
    · obtain ⟨-, hlt, -⟩ := of_mem_delimiters hc
      rw [List.mem_singleton.1 hmem] at hlt
      omega

theorem mem_lowerChar_iff (hc : c ∈ delimiters) (d : Char) : c ∈ lowerChar d ↔ c = d := by
  obtain ⟨-, hlt, hupper, -⟩ := of_mem_delimiters hc
  unfold lowerChar
  split
  · rw [List.mem_singleton]
    rcases toLower_cases d with heq | ⟨hd, hle⟩
    · rw [heq]
    · constructor
      · rintro rfl
        omega
      · rintro rfl
        rw [hupper] at hd
        cases hd
  · rename_i hd
    refine ⟨fun h => absurd h (not_mem_caseImage hc (by omega)), ?_⟩
    rintro rfl
    omega

/-- A text holds the delimiters that its lower case holds. -/
theorem Text.mem_lower_iff (hc : c ∈ delimiters) (t : Text) : c ∈ lower t ↔ c ∈ t := by
  obtain ⟨-, -, -, hcapital, hsmall, hfinal⟩ := of_mem_delimiters hc
  have hfrom : ∀ afterCased, c ∈ lowerFrom afterCased t ↔ c ∈ t := by
    induction t with
    | nil => exact fun _ => Iff.rfl
    | cons d t ih =>
      intro afterCased
      rw [lowerFrom, List.mem_append, ih, List.mem_cons]
      refine or_congr_left ?_
      split
      · rename_i hd
        split <;> simp [hd, hcapital, hsmall, hfinal]
      · exact mem_lowerChar_iff hc d
  exact hfrom false

end Delimiters

/-! ## Names -/

/-- A name is one that a reference can be made of when it is not empty and holds no delimiter. -/
theorem symbolName_iff (name : Text) :
    SymbolName name ↔ name ≠ [] ∧ ∀ c ∈ delimiters, c ∉ name := by
  simp [SymbolName, delimiters]

/-- A reference can be made of all spellings of a name or of none. -/
theorem symbolName_congr {name other : Text} (h : Text.lower other = Text.lower name) :
    SymbolName other ↔ SymbolName name := by
  have hmem : ∀ c ∈ delimiters, (c ∉ other ↔ c ∉ name) := by
    intro c hc
    rw [← Text.mem_lower_iff hc other, h, Text.mem_lower_iff hc name]
  have hnil : other = [] ↔ name = [] := by
    rw [← Text.lower_eq_nil_iff other, h, Text.lower_eq_nil_iff name]
  rw [symbolName_iff, symbolName_iff, Ne, hnil]
  exact and_congr_right fun _ => forall₂_congr hmem

end TextGrammar
