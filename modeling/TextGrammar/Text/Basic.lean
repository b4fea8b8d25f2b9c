/-!
# Texts

A text is its list of characters, so that scanning, cutting and joining are list functions and
their laws are list lemmas. This module holds the operations every other module needs.

## Main definitions

* `Text` — a list of characters.
* `Text.joined` — texts written one after the other with a separator between neighbours.
* `Text.replace` — every occurrence of one text written as another.
-/

namespace TextGrammar

abbrev Text := List Char

namespace Text

/-- The texts one after the other, with `separator` between neighbours. -/
def joined (separator : Text) : List Text → Text
  | [] => []
  | [t] => t
  | t :: u :: rest => t ++ separator ++ joined separator (u :: rest)

@[simp] theorem joined_nil (separator : Text) : joined separator [] = [] := rfl

@[simp] theorem joined_singleton (separator t : Text) : joined separator [t] = t := rfl

theorem joined_cons_cons (separator t u : Text) (rest : List Text) :
    joined separator (t :: u :: rest) = t ++ separator ++ joined separator (u :: rest) := rfl

/-- Drops `start` from the front of a text, or answers `none` when the text does not begin so. -/
def dropStart? : (start : Text) → Text → Option Text
  | [], t => some t
  | _ :: _, [] => none
  | a :: start, c :: t => if a = c then dropStart? start t else none

theorem eq_append_of_dropStart? {start t rest : Text} (h : dropStart? start t = some rest) :
    t = start ++ rest := by
  induction start generalizing t with
  | nil => simpa [dropStart?] using h
  | cons a start ih =>
    cases t with
    | nil => simp [dropStart?] at h
    | cons c t =>
      by_cases hac : a = c
      · simp only [dropStart?, hac, if_true] at h
        simp [hac, ih h]
      · simp [dropStart?, hac] at h

theorem dropStart?_append (start rest : Text) : dropStart? start (start ++ rest) = some rest := by
  induction start with
  | nil => rfl
  | cons a start ih => rw [List.cons_append, dropStart?, if_pos rfl, ih]

theorem dropStart?_eq_none_iff {start t : Text} : dropStart? start t = none ↔ ¬ start <+: t := by
  rw [Option.eq_none_iff_forall_ne_some]
  constructor
  · rintro h ⟨rest, rfl⟩
    exact h rest (dropStart?_append start rest)
  · intro h rest hrest
    exact h ⟨rest, (eq_append_of_dropStart? hrest).symm⟩

def occursIn (part : Text) : Text → Bool
  | [] => part.isEmpty
  | c :: t => part.isPrefixOf (c :: t) || occursIn part t

/-- Writes `new` for the occurrences of the nonempty text `first :: old`, found from the left;
`skip` counts the characters that belong to an occurrence already written. -/
def replaceFrom (first : Char) (old new : Text) : (skip : Nat) → Text → Text
  | _, [] => []
  | skip + 1, _ :: t => replaceFrom first old new skip t
  | 0, c :: t =>
    if (first :: old).isPrefixOf (c :: t) then new ++ replaceFrom first old new old.length t
    else c :: replaceFrom first old new 0 t

/-- Every occurrence of `old`, found from the left, written as `new`; the empty text occurs before
every character and at the end. -/
def replace (old new t : Text) : Text :=
  match old with
  | [] => new ++ t.flatMap fun c => c :: new
  | first :: rest => replaceFrom first rest new 0 t

/-- Cuts a text at its first `mark`: what stands before it, and what follows it, which is `none`
when there is no `mark`. -/
def cutAt (mark : Char) : Text → Text × Option Text
  | [] => ([], none)
  | c :: t =>
    if c = mark then ([], some t)
    else
      let (before, after) := cutAt mark t
      (c :: before, after)

/-- The text that `cutAt` was given, from its two parts. -/
theorem eq_of_cutAt (mark : Char) (t : Text) :
    t = (cutAt mark t).1 ++ (match (cutAt mark t).2 with | none => [] | some u => mark :: u) := by
  induction t with
  | nil => rfl
  | cons c t ih =>
    by_cases h : c = mark
    · simp [cutAt, h]
    · simpa [cutAt, h] using ih

/-- The part before the cut holds no `mark`. -/
theorem not_mem_cutAt (mark : Char) (t : Text) : mark ∉ (cutAt mark t).1 := by
  induction t with
  | nil => simp [cutAt]
  | cons c t ih =>
    by_cases h : c = mark
    · simp [cutAt, h]
    · simpa [cutAt, h, Ne.symm h] using ih

/-- Without a `mark` nothing is cut off. -/
theorem cutAt_of_not_mem {mark : Char} {t : Text} (h : mark ∉ t) : cutAt mark t = (t, none) := by
  induction t with
  | nil => rfl
  | cons c t ih =>
    obtain ⟨hc, ht⟩ := not_or.1 (mt List.mem_cons.2 h)
    rw [cutAt, if_neg (Ne.symm hc), ih ht]

/-- The first `mark` cuts. -/
theorem cutAt_append {mark : Char} {t : Text} (h : mark ∉ t) (rest : Text) :
    cutAt mark (t ++ mark :: rest) = (t, some rest) := by
  induction t with
  | nil => simp [cutAt]
  | cons c t ih =>
    obtain ⟨hc, ht⟩ := not_or.1 (mt List.mem_cons.2 h)
    rw [List.cons_append, cutAt, if_neg (Ne.symm hc), ih ht]

/-- Cuts a text at every `mark`: the first part, and the parts after each `mark`. -/
def parts (mark : Char) : Text → Text × List Text
  | [] => ([], [])
  | c :: t =>
    let (first, others) := parts mark t
    if c = mark then ([], first :: others) else (c :: first, others)

/-- Joining the parts at the marks gives the text back. -/
theorem joined_parts (mark : Char) (t : Text) :
    joined [mark] ((parts mark t).1 :: (parts mark t).2) = t := by
  induction t with
  | nil => rfl
  | cons c t ih =>
    by_cases h : c = mark
    · simp [parts, h, joined, ih]
    · simp only [parts, h, if_false]
      cases hp : (parts mark t).2 with
      | nil => simpa [hp] using ih
      | cons u rest =>
        rw [hp] at ih
        simp [joined] at ih ⊢
        exact ih

/-- Without a `mark` there is one part. -/
theorem parts_of_not_mem {mark : Char} {t : Text} (h : mark ∉ t) : parts mark t = (t, []) := by
  induction t with
  | nil => rfl
  | cons c t ih =>
    obtain ⟨hc, ht⟩ := not_or.1 (mt List.mem_cons.2 h)
    rw [parts, ih ht]
    exact if_neg (Ne.symm hc)

/-- The first part ends at the first `mark`. -/
theorem parts_append {mark : Char} {t : Text} (h : mark ∉ t) (rest : Text) :
    parts mark (t ++ mark :: rest) = (t, (parts mark rest).1 :: (parts mark rest).2) := by
  induction t with
  | nil => simp [parts]
  | cons c t ih =>
    obtain ⟨hc, ht⟩ := not_or.1 (mt List.mem_cons.2 h)
    rw [List.cons_append, parts, ih ht]
    exact if_neg (Ne.symm hc)

/-- No part holds a `mark`. -/
theorem not_mem_of_mem_parts {mark : Char} {t part : Text}
    (h : part ∈ (parts mark t).1 :: (parts mark t).2) : mark ∉ part := by
  induction t generalizing part with
  | nil =>
    rw [List.mem_singleton.1 h]
    exact List.not_mem_nil
  | cons c t ih =>
    simp only [parts] at h
    by_cases hc : c = mark
    · rw [if_pos hc] at h
      rcases List.mem_cons.1 h with rfl | h
      · exact List.not_mem_nil
      · exact ih h
    · rw [if_neg hc] at h
      rcases List.mem_cons.1 h with rfl | h
      · simpa [Ne.symm hc] using ih List.mem_cons_self
      · exact ih (List.mem_cons_of_mem _ h)

/-- Texts without a `mark` are the parts of what they are joined to. -/
theorem parts_joined {mark : Char} {first : Text} {others : List Text}
    (h : ∀ part ∈ first :: others, mark ∉ part) :
    parts mark (joined [mark] (first :: others)) = (first, others) := by
  induction others generalizing first with
  | nil => exact parts_of_not_mem (h first List.mem_cons_self)
  | cons next others ih =>
    have hrest := ih fun part hp => h part (List.mem_cons_of_mem first hp)
    rw [joined_cons_cons, List.append_assoc, List.singleton_append,
      parts_append (h first List.mem_cons_self), hrest]

end Text

end TextGrammar
