import TextGrammar.Text.CodeRange

/-!
# White space

The blank characters: the controls that move the writing position, the four separators of files,
groups, records and units, and every space, line separator and paragraph separator.
-/

namespace TextGrammar

def whiteSpace : CodeRanges := [
  (0x9, 0xD), (0x1C, 0x20), (0x85, 0x85), (0xA0, 0xA0),
  (0x1680, 0x1680), (0x2000, 0x200A), (0x2028, 0x2029), (0x202F, 0x202F),
  (0x205F, 0x205F), (0x3000, 0x3000)]

def isSpace (c : Char) : Bool := whiteSpace.has c

namespace Text

def stripStart (t : Text) : Text := t.dropWhile isSpace

def stripEnd (t : Text) : Text := (t.reverse.dropWhile isSpace).reverse

def strip (t : Text) : Text := stripEnd (stripStart t)

def isBlank (t : Text) : Bool := t.all isSpace

@[simp] theorem isBlank_nil : isBlank [] = true := rfl

theorem isBlank_iff (t : Text) : isBlank t = true ↔ ∀ c ∈ t, isSpace c = true := by
  simp [isBlank]

end Text

end TextGrammar
