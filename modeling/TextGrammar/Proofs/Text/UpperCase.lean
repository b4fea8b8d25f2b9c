import TextGrammar.Proofs.Rule.Spelling
import TextGrammar.Text.WhiteSpace
import Mathlib.Data.Nat.Bitwise

/-!
# What writing capitals relies on

A text whose capitals are written twice is the text whose capitals are written once, when upper case
is final and when it leaves white space where it is and brings in none. The table of upper case does
so. Its rows are compared as two sets of code points, what is changed and what it is changed into; a
set is a number whose bits are the code points, so that one conjunction of bits compares them all.

## Main definitions

* `LawfulUpper` — what is relied on.
* `bitsOf` — a set of code points as a number.
* `upperSources`, `upperImages` — the code points that upper case changes, and what it changes them
  into.

## Main results

* `not_mem_of_bitsOf_land` — sets without a common bit have no common code point.
* `lawfulUpper_upperChar` — the table of upper case is lawful.
-/

namespace TextGrammar

/-- Upper case as far as it is relied on. -/
structure LawfulUpper (upper : Char → Text) : Prop where
  /-- What is in upper case is its own upper case. -/
  final : ∀ c, ∀ d ∈ upper c, upper d = [d]
  /-- No character vanishes. -/
  ne_nil : ∀ c, isSpace c = false → upper c ≠ []
  /-- No white space is brought in. -/
  isSpace_eq_false : ∀ c, isSpace c = false → ∀ d ∈ upper c, isSpace d = false
  /-- White space stays as it is. -/
  space : ∀ c, isSpace c = true → upper c = [c]

/-! ## Sets of code points -/

/-- A set of code points as a number: bit `n` tells whether `n` is in the set. -/
def bitsOf (codes : List Nat) : Nat := codes.foldr (fun n bits => 1 <<< n ||| bits) 0

theorem testBit_bitsOf (codes : List Nat) (n : Nat) :
    (bitsOf codes).testBit n = true ↔ n ∈ codes := by
  induction codes with
  | nil => simp [bitsOf]
  | cons m codes ih =>
    rw [bitsOf, List.foldr_cons, Nat.testBit_or, Bool.or_eq_true, Nat.one_shiftLeft,
      Nat.testBit_two_pow, decide_eq_true_iff, List.mem_cons, eq_comm]
    exact or_congr_right ih

/-- Sets without a common bit have no common code point. -/
theorem not_mem_of_bitsOf_land {some others : List Nat} (h : bitsOf some &&& bitsOf others = 0)
    {n : Nat} (hn : n ∈ some) : n ∉ others := by
  intro hother
  have hbit := Nat.testBit_land (bitsOf some) (bitsOf others) n
  rw [h, Nat.zero_testBit, (testBit_bitsOf some n).2 hn, (testBit_bitsOf others n).2 hother] at hbit
  cases hbit

/-- The code points of white space. -/
def spaceCodes : List Nat := whiteSpace.flatMap fun r => List.range' r.1 (r.2 + 1 - r.1)

theorem isSpace_iff (c : Char) : isSpace c = true ↔ c.toNat ∈ spaceCodes := by
  have hrange : ∀ r : Nat × Nat,
      c.toNat ∈ List.range' r.1 (r.2 + 1 - r.1) ↔ r.1 ≤ c.toNat ∧ c.toNat ≤ r.2 := by
    intro r
    rw [List.mem_range'_1]
    omega
  simp only [isSpace, CodeRanges.has_iff, spaceCodes, List.mem_flatMap, hrange]

/-! ## Runs -/

/-- The code points of a run. -/
def CaseRun.codes (run : CaseRun) : List Nat :=
  List.range' run.first ((run.last - run.first) / run.step + 1) run.step

/-- The counterparts of the code points of a run. -/
def CaseRun.images (run : CaseRun) : List Nat :=
  List.range' run.target ((run.last - run.first) / run.step + 1) run.step

/-- A code point with a counterpart is one of the run, and so is its counterpart. -/
theorem CaseRun.of_image? {run : CaseRun} {n m : Nat} (h : run.image? n = some m) :
    n ∈ run.codes ∧ m ∈ run.images := by
  simp only [image?, Option.ite_none_right_eq_some, Option.some.injEq] at h
  obtain ⟨⟨hfirst, hlast, hstep⟩, rfl⟩ := h
  have hplace : n - run.first = run.step * ((n - run.first) / run.step) :=
    (Nat.mul_div_cancel' (Nat.dvd_of_mod_eq_zero hstep)).symm
  have hle : (n - run.first) / run.step < (run.last - run.first) / run.step + 1 :=
    Nat.lt_succ_of_le (Nat.div_le_div_right (Nat.sub_le_sub_right hlast _))
  rw [codes, images, List.mem_range', List.mem_range']
  exact ⟨⟨_, hle, by omega⟩, _, hle, by omega⟩

/-! ## The table of upper case -/

/-- The runs of upper case, with the small letters of the ASCII range. -/
def allUpperRuns : List CaseRun := ⟨0x61, 0x7A, 1, 0x41⟩ :: upperRuns

/-- The code points that upper case changes. -/
def upperSources : List Nat := allUpperRuns.flatMap CaseRun.codes ++ upperExpansions.map (·.1)

/-- The code points that upper case changes them into; zero stands for what is no code point. -/
def upperImages : List Nat :=
  0 :: (allUpperRuns.flatMap CaseRun.images ++ upperExpansions.flatMap (·.2))

theorem mem_upperSources_of_run {run : CaseRun} (hrun : run ∈ allUpperRuns) {n : Nat}
    (hn : n ∈ run.codes) : n ∈ upperSources :=
  List.mem_append_left _ (List.mem_flatMap.2 ⟨run, hrun, hn⟩)

theorem mem_upperImages_of_run {run : CaseRun} (hrun : run ∈ allUpperRuns) {n : Nat}
    (hn : n ∈ run.images) : (Char.ofNat n).toNat ∈ upperImages := by
  rcases toNat_ofNat_cases n with h | h
  · rw [h]
    exact List.mem_cons_of_mem _ (List.mem_append_left _ (List.mem_flatMap.2 ⟨run, hrun, hn⟩))
  · rw [h]
    exact List.mem_cons_self

theorem mem_upperImages_of_expansion {e : Nat × List Nat} (he : e ∈ upperExpansions) {n : Nat}
    (hn : n ∈ e.2) : (Char.ofNat n).toNat ∈ upperImages := by
  rcases toNat_ofNat_cases n with h | h
  · rw [h]
    exact List.mem_cons_of_mem _ (List.mem_append_right _ (List.mem_flatMap.2 ⟨e, he, hn⟩))
  · rw [h]
    exact List.mem_cons_self

/-- A character of the ASCII range is its own upper case, or a small letter. -/
theorem toUpper_cases (c : Char) :
    c.toUpper = c ∨ (⟨0x61, 0x7A, 1, 0x41⟩ : CaseRun).image? c.toNat = some c.toUpper.toNat := by
  unfold Char.toUpper
  split
  · rename_i h
    refine .inr ?_
    obtain ⟨hlow, hhigh⟩ := h
    have hfirst : 'a'.val.toNat = 97 := rfl
    have hlast : 'z'.val.toNat = 122 := rfl
    have hshift : ('A'.val - 'a'.val).toNat = 4294967264 := rfl
    simp only [UInt32.le_iff_toNat_le] at hlow hhigh
    rw [CaseRun.image?, if_pos (by simp only [Char.toNat, Nat.mod_one, and_true]; omega)]
    simp only [Char.toNat, UInt32.toNat_add, Option.some.injEq]
    omega
  · exact .inl rfl

/-- A character is its own upper case, or the table has it and what it is changed into. -/
theorem upperChar_cases (c : Char) :
    upperChar c = [c] ∨
      c.toNat ∈ upperSources ∧ ∀ d ∈ upperChar c, d.toNat ∈ upperImages := by
  unfold upperChar
  split
  · rcases toUpper_cases c with h | h
    · exact .inl (by rw [h])
    · obtain ⟨hcode, himage⟩ := CaseRun.of_image? h
      refine .inr ⟨mem_upperSources_of_run List.mem_cons_self hcode, fun d hd => ?_⟩
      obtain rfl := List.mem_singleton.1 hd
      exact List.mem_cons_of_mem _
        (List.mem_append_left _ (List.mem_flatMap.2 ⟨_, List.mem_cons_self, himage⟩))
  · unfold caseImage
    split
    · rename_i n image h
      have he := List.mem_of_find?_eq_some h
      have hn : n = c.toNat := by simpa using List.find?_some h
      refine .inr ⟨List.mem_append_right _ (List.mem_map.2 ⟨_, he, hn⟩), fun d hd => ?_⟩
      obtain ⟨code, hcode, rfl⟩ := List.mem_map.1 hd
      exact mem_upperImages_of_expansion he hcode
    · split
      · rename_i image h
        obtain ⟨run, hrun, himage⟩ := List.exists_of_findSome?_eq_some h
        obtain ⟨hcode, himage⟩ := CaseRun.of_image? himage
        have hrun := List.mem_cons_of_mem (⟨0x61, 0x7A, 1, 0x41⟩ : CaseRun) hrun
        refine .inr ⟨mem_upperSources_of_run hrun hcode, fun d hd => ?_⟩
        obtain rfl := List.mem_singleton.1 hd
        exact mem_upperImages_of_run hrun himage
      · exact .inl rfl

theorem upperChar_of_not_mem {c : Char} (h : c.toNat ∉ upperSources) : upperChar c = [c] :=
  (upperChar_cases c).resolve_right fun hc => h hc.1

/-- No character has an empty upper case. -/
theorem upperChar_ne_nil (c : Char) : upperChar c ≠ [] := by
  have himages : ∀ e ∈ upperExpansions, e.2.map Char.ofNat ≠ [] := by decide
  unfold upperChar caseImage
  split
  · exact List.cons_ne_nil _ _
  · split
    · rename_i n image h
      exact himages (n, image) (List.mem_of_find?_eq_some h)
    · split <;> exact List.cons_ne_nil _ _

/-- What upper case changes something into is not changed, and is no white space. -/
theorem bitsOf_upperImages : bitsOf upperImages &&& bitsOf (upperSources ++ spaceCodes) = 0 := by
  decide +kernel

/-- White space is not changed. -/
theorem bitsOf_spaceCodes : bitsOf spaceCodes &&& bitsOf upperSources = 0 := by decide +kernel

/-- The table of upper case is lawful. -/
theorem lawfulUpper_upperChar : LawfulUpper upperChar where
  final c d hd := by
    rcases upperChar_cases c with h | ⟨-, himages⟩
    · obtain rfl : d = c := by simpa [h] using hd
      exact h
    · have hnot := not_mem_of_bitsOf_land bitsOf_upperImages (himages d hd)
      exact upperChar_of_not_mem fun hmem => hnot (List.mem_append_left _ hmem)
  ne_nil c _ := upperChar_ne_nil c
  isSpace_eq_false c hc d hd := by
    rcases upperChar_cases c with h | ⟨-, himages⟩
    · obtain rfl : d = c := by simpa [h] using hd
      exact hc
    · have hnot := not_mem_of_bitsOf_land bitsOf_upperImages (himages d hd)
      rw [← Bool.not_eq_true, isSpace_iff]
      exact fun hmem => hnot (List.mem_append_right _ hmem)
  space c hc :=
    upperChar_of_not_mem (not_mem_of_bitsOf_land bitsOf_spaceCodes ((isSpace_iff c).1 hc))

end TextGrammar
