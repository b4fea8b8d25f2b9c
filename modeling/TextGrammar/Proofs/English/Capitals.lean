import TextGrammar.English.Casing
import TextGrammar.Proofs.Text.Pattern
import TextGrammar.Proofs.Text.UpperCase

/-!
# Capitals

Title case changes the first character of each word, a word being a run of characters other than
white space that is not part of a longer one, and keeps everything else. It is also what comes of
replacing, from left to right, each first character of a word together with the white space before
it: the white space that a match takes is not missing for the next match, since a match ends inside
of a word.

Capitals can be written twice without harm. The upper case of one character may be several, which
stand in one word with what follows, so that the second time only the first of them is looked at.

## Main definitions

* `TitleCased` — a text and the same text in title case, word by word.
* `wordStartPatterns` — the start of a word.

## Main results

* `titleCaseFrom_eq_iff` — title case, word by word.
* `search_cases` — one step of the search for the starts of words.
* `titleCaseFrom_eq_iff_replacesAll` — title case as a replacement of what patterns match.
* `titleCaseFrom_titleCaseFrom`, `sentenceCaseWith_sentenceCaseWith` — capitals of capitals.
* `capitals_at_word_starts` — title case and sentence case.
-/

namespace TextGrammar

/-- A text and the text with the first character of each word in upper case. A word ends at white
space or with the text. -/
inductive TitleCased (upper : Char → Text) : Text → Text → Prop
  | nil : TitleCased upper [] []
  | space {c : Char} {t u : Text} (hc : isSpace c = true) (hrest : TitleCased upper t u) :
    TitleCased upper (c :: t) (c :: u)
  /-- Of a whole word the first character is changed. -/
  | word {c : Char} {run t u : Text} (hc : isSpace c = false) (hrun : ∀ d ∈ run, isSpace d = false)
    (hend : ∀ d ∈ t.head?, isSpace d = true) (hrest : TitleCased upper t u) :
    TitleCased upper (c :: run ++ t) (upper c ++ run ++ u)

/-- The start of the text or white space, and the first character of a word. -/
def wordStartPatterns : List Pattern := [.either .start (.one isSpace), .one (!isSpace ·)]

/-- The start of a word with its first character in upper case. -/
def capitalStart (upper : Char → Text) : List Text → Text
  | [before, first] => before ++ first.flatMap upper
  | _ => []

variable {upper : Char → Text}

/-! ## Word by word -/

section Words

variable {c : Char} {t : Text}

theorem titleCaseFrom_space (inWord : Bool) (hc : isSpace c = true) :
    titleCaseFrom upper inWord (c :: t) = c :: titleCaseFrom upper false t := by
  rw [titleCaseFrom, hc, Bool.true_or, if_pos rfl]
  rfl

theorem titleCaseFrom_first (hc : isSpace c = false) :
    titleCaseFrom upper false (c :: t) = upper c ++ titleCaseFrom upper true t := by
  rw [titleCaseFrom, hc, Bool.false_or, if_neg Bool.false_ne_true]
  rfl

theorem titleCaseFrom_inside (hc : isSpace c = false) :
    titleCaseFrom upper true (c :: t) = c :: titleCaseFrom upper true t := by
  rw [titleCaseFrom, Bool.or_true, if_pos rfl, hc, Bool.not_false]
  rfl

/-- The rest of a word stays as it is. -/
theorem titleCaseFrom_append {run : Text} (hrun : ∀ d ∈ run, isSpace d = false) (t : Text) :
    titleCaseFrom upper true (run ++ t) = run ++ titleCaseFrom upper true t := by
  induction run with
  | nil => rfl
  | cons d run ih =>
    obtain ⟨hd, hrun⟩ := List.forall_mem_cons.1 hrun
    rw [List.cons_append, titleCaseFrom_inside hd, ih hrun, List.cons_append]

/-- Where no word goes on it does not matter whether there was one. -/
theorem titleCaseFrom_of_head? (hend : ∀ d ∈ t.head?, isSpace d = true) (inWord : Bool) :
    titleCaseFrom upper inWord t = titleCaseFrom upper false t := by
  cases t with
  | nil => cases inWord <;> rfl
  | cons d t => rw [titleCaseFrom_space _ (hend d rfl), titleCaseFrom_space _ (hend d rfl)]

end Words

/-- Title case goes word by word. So that a word can be taken as a whole, a text is cut behind the
word, or rest of a word, that it begins with: it goes word by word from there on, too. -/
theorem titleCased_titleCaseFrom (t : Text) : TitleCased upper t (titleCaseFrom upper false t) ∧
    ∃ run rest, t = run ++ rest ∧ (∀ d ∈ run, isSpace d = false) ∧
      (∀ d ∈ rest.head?, isSpace d = true) ∧
      TitleCased upper rest (titleCaseFrom upper false rest) := by
  induction t with
  | nil => exact ⟨.nil, [], [], rfl, nofun, nofun, .nil⟩
  | cons c t ih =>
    obtain ⟨hall, run, rest, rfl, hrun, hend, hrest⟩ := ih
    cases hc : isSpace c with
    | true =>
      have hhere : TitleCased upper (c :: (run ++ rest))
          (titleCaseFrom upper false (c :: (run ++ rest))) := by
        rw [titleCaseFrom_space _ hc]
        exact .space hc hall
      refine ⟨hhere, [], c :: (run ++ rest), rfl, nofun, fun d hd => ?_, hhere⟩
      obtain rfl := Option.some.inj hd
      exact hc
    | false =>
      have hrun' : ∀ d ∈ c :: run, isSpace d = false := List.forall_mem_cons.2 ⟨hc, hrun⟩
      refine ⟨?_, c :: run, rest, rfl, hrun', hend, hrest⟩
      rw [titleCaseFrom_first hc, titleCaseFrom_append hrun, titleCaseFrom_of_head? hend,
        ← List.append_assoc]
      exact .word hc hrun hend hrest

/-- Title case, word by word. -/
theorem titleCaseFrom_eq_iff {t u : Text} :
    titleCaseFrom upper false t = u ↔ TitleCased upper t u := by
  constructor
  · rintro rfl
    exact (titleCased_titleCaseFrom t).1
  · intro h
    induction h with
    | nil => rfl
    | space hc _ ih => rw [titleCaseFrom_space _ hc, ih]
    | word hc hrun hend _ ih =>
      rw [List.cons_append, titleCaseFrom_first hc, titleCaseFrom_append hrun,
        titleCaseFrom_of_head? hend, ih, List.append_assoc]

/-! ## By a search for the starts of words -/

section Search

variable (atStart : Bool) (t : Text)

/-- At the start of the text a word can start without white space before it. -/
theorem firstMatch?_first {c : Char} (hc : isSpace c = false) :
    firstMatch? wordStartPatterns true (c :: t) = some ([[], [c]], t) := by
  simp [wordStartPatterns, firstMatch?, Pattern.ways, hc]

theorem firstMatch?_inside {c : Char} (hc : isSpace c = false) :
    firstMatch? wordStartPatterns false (c :: t) = none := by
  simp [wordStartPatterns, firstMatch?, Pattern.ways, hc]

/-- White space is taken together with the first character of the word behind it. -/
theorem firstMatch?_space_first {c d : Char} (hc : isSpace c = true) (hd : isSpace d = false) :
    firstMatch? wordStartPatterns atStart (c :: d :: t) = some ([[c], [d]], t) := by
  cases atStart <;> simp [wordStartPatterns, firstMatch?, Pattern.ways, hc, hd]

theorem firstMatch?_space {c : Char} (hc : isSpace c = true)
    (hend : ∀ d ∈ t.head?, isSpace d = true) :
    firstMatch? wordStartPatterns atStart (c :: t) = none := by
  cases t with
  | nil => cases atStart <;> simp [wordStartPatterns, firstMatch?, Pattern.ways, hc]
  | cons d t =>
    cases atStart <;> simp [wordStartPatterns, firstMatch?, Pattern.ways, hc, hend d rfl]

/-- One step of the search is one step of title case. Away from the start of the text it goes on
inside of a word, or before white space, where title case does not look back. -/
theorem search_cases (upper : Char → Text) :
    t = [] ∨
    (∃ c rest, t = c :: rest ∧ firstMatch? wordStartPatterns atStart t = none ∧
      titleCaseFrom upper (!atStart) t = c :: titleCaseFrom upper true rest) ∨
    (∃ pieces rest, firstMatch? wordStartPatterns atStart t = some (pieces, rest) ∧
      rest.length < t.length ∧
      titleCaseFrom upper (!atStart) t
        = capitalStart upper pieces ++ titleCaseFrom upper true rest) := by
  cases t with
  | nil => exact .inl rfl
  | cons c t =>
    refine .inr ?_
    cases hc : isSpace c with
    | false =>
      cases atStart with
      | true =>
        refine .inr ⟨_, t, firstMatch?_first t hc, Nat.lt_succ_self _, ?_⟩
        simpa [capitalStart] using titleCaseFrom_first hc
      | false => exact .inl ⟨c, t, rfl, firstMatch?_inside t hc, titleCaseFrom_inside hc⟩
    | true =>
      rw [titleCaseFrom_space _ hc]
      by_cases hend : ∀ d ∈ t.head?, isSpace d = true
      · refine .inl ⟨c, t, rfl, firstMatch?_space atStart t hc hend, ?_⟩
        rw [titleCaseFrom_of_head? hend true]
      · obtain ⟨d, hhead, hd⟩ : ∃ d ∈ t.head?, isSpace d = false := by simpa using hend
        obtain ⟨rest, rfl⟩ := List.head?_eq_some_iff.1 hhead
        refine .inr ⟨_, rest, firstMatch?_space_first atStart rest hc hd, ?_, ?_⟩
        · exact (Nat.lt_succ_self _).trans (Nat.lt_succ_self _)
        · rw [titleCaseFrom_first hd]
          simp [capitalStart]

end Search

/-- Title case is a replacement of the starts of words. -/
theorem titleCaseFrom_eq_iff_replacesAll {atStart : Bool} {t u : Text} :
    titleCaseFrom upper (!atStart) t = u ↔
      ReplacesAll wordStartPatterns (capitalStart upper) atStart t u := by
  constructor
  · rintro rfl
    induction h : t.length using Nat.strongRecOn generalizing t atStart with
    | ind n ih =>
      rcases search_cases atStart t upper with
        rfl | ⟨c, rest, rfl, hmatch, heq⟩ | ⟨pieces, rest, hmatch, hlength, heq⟩
      · exact .done (by cases atStart <;> rfl)
      · rw [heq]
        exact .keep hmatch (ih _ (h ▸ Nat.lt_succ_self _) rfl)
      · rw [heq]
        exact .change hmatch hlength (ih _ (h ▸ hlength) rfl)
  · intro h
    induction h with
    | done => rw [titleCaseFrom]
    | @keep atStart c t u h _ ih =>
      rcases search_cases atStart (c :: t) upper with
        hnil | ⟨c, rest, hcons, -, heq⟩ | ⟨pieces, rest, hmatch, -⟩
      · cases hnil
      · obtain ⟨rfl, rfl⟩ := List.cons.inj hcons
        rw [heq]
        exact congrArg _ ih
      · rw [h] at hmatch
        cases hmatch
    | @change atStart t rest u pieces h hlength _ ih =>
      rcases search_cases atStart t upper with
        rfl | ⟨c, rest, -, hmatch, -⟩ | ⟨pieces, rest, hmatch, -, heq⟩
      · cases hlength
      · rw [h] at hmatch
        cases hmatch
      · obtain ⟨rfl, rfl⟩ := Prod.mk.inj (Option.some.inj (h.symm.trans hmatch))
        rw [heq]
        exact congrArg _ ih

/-! ## Capitals of capitals -/

section Again

variable (h : LawfulUpper upper)

include h

/-- The upper case of a character has a first character. -/
theorem LawfulUpper.upper_ne_nil (c : Char) : upper c ≠ [] := by
  cases hc : isSpace c with
  | true => simp [h.space c hc]
  | false => exact h.ne_nil c hc

theorem sentenceCaseWith_sentenceCaseWith (t : Text) :
    sentenceCaseWith upper (sentenceCaseWith upper t) = sentenceCaseWith upper t := by
  cases t with
  | nil => rfl
  | cons c t =>
    obtain ⟨d, rest, hd⟩ := List.exists_cons_of_ne_nil (h.upper_ne_nil c)
    have hfinal : upper d = [d] := h.final c d (by simp [hd])
    rw [sentenceCaseWith, hd, List.cons_append, sentenceCaseWith, hfinal, List.singleton_append]

/-- What is written in title case stays as it is when it is written in title case again, whether a
word goes on or not. -/
theorem titleCaseFrom_titleCaseFrom (inWord : Bool) (t : Text) :
    titleCaseFrom upper inWord (titleCaseFrom upper inWord t) = titleCaseFrom upper inWord t := by
  induction t generalizing inWord with
  | nil => rfl
  | cons c t ih =>
    cases hc : isSpace c with
    | true => rw [titleCaseFrom_space _ hc, titleCaseFrom_space _ hc, ih]
    | false =>
      cases inWord with
      | true => rw [titleCaseFrom_inside hc, titleCaseFrom_inside hc, ih]
      | false =>
        obtain ⟨d, rest, hd⟩ := List.exists_cons_of_ne_nil (h.upper_ne_nil c)
        have hfinal : upper d = [d] := h.final c d (by simp [hd])
        have hword : ∀ e ∈ d :: rest, isSpace e = false := hd ▸ h.isSpace_eq_false c hc
        obtain ⟨hspace, hrest⟩ := List.forall_mem_cons.1 hword
        rw [titleCaseFrom_first hc, hd, List.cons_append, titleCaseFrom_first hspace, hfinal,
          titleCaseFrom_append hrest, ih, List.singleton_append]

end Again

/-- **Capitals at the starts of words.** Whatever the upper case of characters is, title case writes
the first character of each word in upper case and keeps everything else, and this is what comes of
replacing all starts of words that a search from left to right finds. When upper case is lawful,
capitals of capitals are the same capitals, in title case and in sentence case. The upper case of
the table is lawful, so that title case and sentence case change nothing the second time. -/
theorem capitals_at_word_starts :
    (∀ upper t u, titleCaseFrom upper false t = u ↔ TitleCased upper t u) ∧
    (∀ upper t u, titleCaseFrom upper false t = u ↔
      ReplacesAll wordStartPatterns (capitalStart upper) true t u) ∧
    (∀ upper, LawfulUpper upper → ∀ t,
      titleCaseFrom upper false (titleCaseFrom upper false t) = titleCaseFrom upper false t ∧
      sentenceCaseWith upper (sentenceCaseWith upper t) = sentenceCaseWith upper t) ∧
    ∀ t, TitleCased upperChar t (titleCase t) ∧ titleCase (titleCase t) = titleCase t ∧
      sentenceCase (sentenceCase t) = sentenceCase t := by
  refine ⟨fun upper t u => titleCaseFrom_eq_iff,
    fun upper t u => @titleCaseFrom_eq_iff_replacesAll upper true t u,
    fun upper h t => ⟨titleCaseFrom_titleCaseFrom h false t, sentenceCaseWith_sentenceCaseWith h t⟩,
    fun t => ⟨titleCaseFrom_eq_iff.1 rfl, ?_, ?_⟩⟩
  · exact titleCaseFrom_titleCaseFrom lawfulUpper_upperChar false t
  · exact sentenceCaseWith_sentenceCaseWith lawfulUpper_upperChar t

/-- A letter with two capitals, and a word of a single letter. -/
theorem titleCase_two_capitals :
    let t := " \u00DFe x\n".toList
    LawfulUpper upperChar ∧ TitleCased upperChar t " SSe X\n".toList ∧
    titleCase (titleCase t) = titleCase t := by
  intro t
  obtain ⟨hwords, -, hagain, -⟩ := capitals_at_word_starts
  exact ⟨lawfulUpper_upperChar, (hwords upperChar t _).1 (by decide +kernel),
    (hagain upperChar lawfulUpper_upperChar t).1⟩

end TextGrammar
