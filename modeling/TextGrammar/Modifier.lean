import TextGrammar.NameMap

/-!
# Modifiers

A modifier changes the text that a reference expands to. It may fail on a text, when what it looks
up is not there. A registry gives modifiers their names.
-/

namespace TextGrammar

/-- A change of text, with a description that it is shown by. Where it fails it gives the key that
it looked up in vain. -/
structure Modifier where
  description : Text
  change : Text → Except Text Text

namespace Modifier

/-- A modifier that never fails. -/
def ofFunction (description : Text) (f : Text → Text) : Modifier :=
  ⟨description, fun t => .ok (f t)⟩

instance : Inhabited Modifier := ⟨ofFunction [] id⟩

/-- What a modifier makes of a text on which it does not fail. Where it fails the expansion around
it breaks off, and it does not matter that the text stays as it is here. -/
def apply (m : Modifier) (t : Text) : Text :=
  match m.change t with
  | .ok changed => changed
  | .error _ => t

@[simp] theorem apply_ofFunction (description : Text) (f : Text → Text) :
    (ofFunction description f).apply = f := rfl

theorem apply_of_change {m : Modifier} {t changed : Text} (h : m.change t = .ok changed) :
    m.apply t = changed := by
  rw [apply, h]

end Modifier

/-- Modifiers under their names. -/
abbrev Registry := NameMap Modifier

end TextGrammar
