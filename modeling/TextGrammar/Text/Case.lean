import TextGrammar.Text.CaseContext
import TextGrammar.Text.CaseTables

/-!
# Lower and upper case

The lower case of a text is taken character by character, but for the capital sigma, whose lower
case is the final form at the end of a word. Names are compared by their lower case, see
`Text.sameName`.

## Main definitions

* `Text.lower`, `Text.upper` — a text in lower and in upper case.
* `Text.sameName` — whether two texts are spellings of one name.
-/

namespace TextGrammar

/-- The counterpart of a character above the ASCII range in a table of expansions and runs. -/
def caseImage (expansions : List (Nat × List Nat)) (runs : List CaseRun) (c : Char) : Text :=
  match expansions.find? (·.1 = c.toNat) with
  | some (_, image) => image.map Char.ofNat
  | none =>
    match runs.findSome? (·.image? c.toNat) with
    | some image => [Char.ofNat image]
    | none => [c]

def lowerChar (c : Char) : Text :=
  if c.toNat < 128 then [c.toLower] else caseImage lowerExpansions lowerRuns c

/-- No character has an empty lower case. -/
theorem lowerChar_ne_nil (c : Char) : lowerChar c ≠ [] := by
  have himages : ∀ e ∈ lowerExpansions, e.2.map Char.ofNat ≠ [] := by decide
  unfold lowerChar caseImage
  split
  · exact List.cons_ne_nil _ _
  · split
    · rename_i n image h
      exact himages (n, image) (List.mem_of_find?_eq_some h)
    · split <;> exact List.cons_ne_nil _ _

def upperChar (c : Char) : Text :=
  if c.toNat < 128 then [c.toUpper] else caseImage upperExpansions upperRuns c

namespace Text

/-- Whether the first character that has a say is cased. -/
def startsCased (t : Text) : Bool :=
  match t.find? (!isCaseIgnorable ·) with
  | some c => isCased c
  | none => false

/-- The lower case of the rest of a text; `afterCased` says whether the last character with a say
before it was cased. -/
def lowerFrom : (afterCased : Bool) → Text → Text
  | _, [] => []
  | afterCased, c :: t =>
    (if c = 'Σ' then [if afterCased && !startsCased t then 'ς' else 'σ'] else lowerChar c)
      ++ lowerFrom (if isCaseIgnorable c then afterCased else isCased c) t

def lower (t : Text) : Text := lowerFrom false t

def upper (t : Text) : Text := t.flatMap upperChar

/-- Whether two texts are spellings of one name: they have the same lower case. -/
def sameName (a b : Text) : Bool := lower a == lower b

@[simp] theorem lower_nil : lower [] = [] := rfl

/-- The lower case of a text that is not empty is not empty. -/
theorem lower_eq_nil_iff (t : Text) : lower t = [] ↔ t = [] := by
  cases t with
  | nil => exact ⟨fun _ => rfl, fun _ => rfl⟩
  | cons c t =>
    refine ⟨fun h => ?_, fun h => absurd h (List.cons_ne_nil c t)⟩
    have hfirst := (List.append_eq_nil_iff.1 h).1
    split at hfirst
    · exact absurd hfirst (List.cons_ne_nil _ _)
    · exact absurd hfirst (lowerChar_ne_nil c)

@[simp] theorem sameName_iff (a b : Text) : sameName a b = true ↔ lower a = lower b := by
  simp [sameName]

end Text

end TextGrammar
