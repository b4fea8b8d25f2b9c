import TextGrammar.Proofs.Rule.Closing

/-!
# Reading a rule one construct at a time

There is one equation for each way in which reading goes on, and neither scanner looks beyond the
end of the construct that it closes. From these alone it is told what a rule is read as.

## Main results

* `closeBinding_of_rest`, `closeReference_of_rest` — a construct closes at the same place whatever
  follows it.
* `parse_other`, `parse_hash_hash`, `parse_open_hash`, `parse_open_bracket`, `parse_reference`,
  `parse_binding` — the equations of reading.
-/

namespace TextGrammar

/-! ## What follows a construct -/

/-- A binding closes at the same place whatever follows it. -/
theorem closeBinding_of_rest {depth : Nat} {t inner rest : Text}
    (h : closeBinding depth t = some (inner, rest)) (other : Text) :
    closeBinding depth (inner ++ ']' :: other) = some (inner, other) := by
  induction t generalizing depth inner with
  | nil => simp [closeBinding] at h
  | cons c t ih =>
    by_cases ho : c = '['
    · subst ho
      rw [closeBinding_open] at h
      obtain ⟨inner, rfl, hi⟩ := map_cons_eq_some h
      rw [List.cons_append, closeBinding_open, ih hi]
      rfl
    · by_cases hc : c = ']'
      · subst hc
        cases depth with
        | zero =>
          rw [closeBinding_close_zero] at h
          cases h
          exact closeBinding_close_zero other
        | succ depth =>
          rw [closeBinding_close_succ] at h
          obtain ⟨inner, rfl, hi⟩ := map_cons_eq_some h
          rw [List.cons_append, closeBinding_close_succ, ih hi]
          rfl
      · rw [closeBinding_other ho hc] at h
        obtain ⟨inner, rfl, hi⟩ := map_cons_eq_some h
        rw [List.cons_append, closeBinding_other ho hc, ih hi]
        rfl

/-- A reference closes at the same place whatever follows it. -/
theorem closeReference_of_rest {depth : Nat} {t body rest : Text}
    (h : closeReference depth t = some (body, rest)) (other : Text) :
    closeReference depth (body ++ '#' :: other) = some (body, other) := by
  induction t generalizing depth body with
  | nil => simp at h
  | cons c t ih =>
    unfold closeReference at h
    split at h
    · rename_i hc
      cases h
      rw [hc.2]
      exact closeReference_hash other
    · rename_i hc
      obtain ⟨body, rfl, hb⟩ := map_cons_eq_some h
      rw [List.cons_append, closeReference, if_neg hc]
      dsimp only
      rw [ih hb]
      rfl

/-! ## The equations of reading -/

/-- A character that opens nothing is literal. -/
theorem parse_other {c : Char} (hh : c ≠ '#') (ho : c ≠ '[') (t : Text) :
    parse (c :: t) = Node.literal c (parse t) := by
  rw [parse, if_neg hh, if_neg ho]

/-- Of two hashes in a row the first is literal. -/
theorem parse_hash_hash (t : Text) :
    parse ('#' :: '#' :: t) = Node.literal '#' (parse ('#' :: t)) := by
  rw [parse, if_pos rfl]
  split
  · rename_i h
    rw [closeReference_hash] at h
    cases h
  · rename_i body rest h
    rw [closeReference_hash] at h
    cases h
    rw [if_pos rfl]

/-- A hash that nothing closes makes the rest of the rule literal. -/
theorem parse_open_hash {t : Text} (h : closeReference 0 t = none) :
    parse ('#' :: t) = [.text ('#' :: t)] := by
  rw [parse, if_pos rfl]
  split
  · rfl
  · rename_i body rest h'
    rw [h] at h'
    cases h'

/-- A reference is read whole, and reading goes on behind it. -/
theorem parse_reference {t body rest : Text} (h : closeReference 0 t = some (body, rest))
    (hb : body ≠ []) : parse ('#' :: t) = .reference (Reference.ofBody body) :: parse rest := by
  rw [parse, if_pos rfl]
  split
  · rename_i h'
    rw [h] at h'
    cases h'
  · rename_i body' rest' h'
    rw [h] at h'
    cases h'
    rw [if_neg hb]

/-- A bracket that nothing closes makes the rest of the rule literal. -/
theorem parse_open_bracket {t : Text} (h : closeBinding 0 t = none) :
    parse ('[' :: t) = [.text ('[' :: t)] := by
  rw [parse, if_neg (by decide), if_pos rfl]
  split
  · rfl
  · rename_i inner rest h'
    rw [h] at h'
    cases h'

/-- A binding is read whole, and reading goes on behind it. -/
theorem parse_binding {t inner rest : Text} (h : closeBinding 0 t = some (inner, rest)) :
    parse ('[' :: t) = .binding (Binding.ofInner inner) :: parse rest := by
  rw [parse, if_neg (by decide), if_pos rfl]
  split
  · rename_i h'
    rw [h] at h'
    cases h'
  · rename_i inner' rest' h'
    rw [h] at h'
    cases h'
    rfl

end TextGrammar
