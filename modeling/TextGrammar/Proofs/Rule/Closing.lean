import TextGrammar.Rule.Parse

/-!
# Where references and bindings close

Both scanners count the brackets they pass. A reference that is closed has closed every bracket it
opened, so each opening bracket in it begins a binding, and what is left of its body besides the
bindings holds neither a hash nor an opening bracket.

## Main results

* `exists_closeBinding_of_closeReference` — inside a closed reference an opened bracket is closed.
* `not_mem_path_of_closeReference` — the path of a closed reference holds no delimiter.
-/

namespace TextGrammar

/-! ## One character at a time -/

@[simp] theorem closeReference_nil (depth : Nat) : closeReference depth [] = none := by
  cases depth <;> rfl

theorem closeReference_hash (t : Text) : closeReference 0 ('#' :: t) = some ([], t) := by
  simp [closeReference]

theorem closeReference_open (depth : Nat) (t : Text) :
    closeReference depth ('[' :: t)
      = (closeReference (depth + 1) t).map fun p => ('[' :: p.1, p.2) := by
  simp [closeReference]

theorem closeReference_close (depth : Nat) (t : Text) :
    closeReference depth (']' :: t)
      = (closeReference (depth - 1) t).map fun p => (']' :: p.1, p.2) := by
  simp [closeReference]

theorem closeReference_other {depth : Nat} {c : Char} (ho : c ≠ '[') (hc : c ≠ ']')
    (hh : c = '#' → depth ≠ 0) (t : Text) :
    closeReference depth (c :: t) = (closeReference depth t).map fun p => (c :: p.1, p.2) := by
  have hn : ¬ (c = '#' ∧ depth = 0) := fun h => hh h.1 h.2
  rw [closeReference, if_neg hn, if_neg ho, if_neg hc]

theorem closeBinding_open (depth : Nat) (t : Text) :
    closeBinding depth ('[' :: t)
      = (closeBinding (depth + 1) t).map fun p => ('[' :: p.1, p.2) := by
  simp [closeBinding]

theorem closeBinding_close_zero (t : Text) : closeBinding 0 (']' :: t) = some ([], t) := by
  simp [closeBinding]

theorem closeBinding_close_succ (depth : Nat) (t : Text) :
    closeBinding (depth + 1) (']' :: t)
      = (closeBinding depth t).map fun p => (']' :: p.1, p.2) := by
  simp [closeBinding]

theorem closeBinding_other {depth : Nat} {c : Char} (ho : c ≠ '[') (hc : c ≠ ']') (t : Text) :
    closeBinding depth (c :: t) = (closeBinding depth t).map fun p => (c :: p.1, p.2) := by
  simp [closeBinding, ho, hc]

/-- What one more character in front of a closed construct takes. -/
theorem map_cons_eq_some {c : Char} {o : Option (Text × Text)} {body rest : Text}
    (h : (o.map fun p => (c :: p.1, p.2)) = some (body, rest)) :
    ∃ body', body = c :: body' ∧ o = some (body', rest) := by
  obtain ⟨p, hp, heq⟩ := Option.map_eq_some_iff.1 h
  obtain ⟨rfl, rfl⟩ := Prod.mk.inj heq
  exact ⟨p.1, rfl, hp⟩

/-! ## References and their bindings -/

/-- Inside a closed reference an opened bracket is closed, and the reference goes on after it as if
it began there. -/
theorem exists_closeBinding_of_closeReference {depth : Nat} {t body rest : Text}
    (h : closeReference (depth + 1) t = some (body, rest)) :
    ∃ inner mid, closeBinding depth body = some (inner, mid) ∧
      closeReference 0 (mid ++ '#' :: rest) = some (mid, rest) := by
  induction t generalizing depth body with
  | nil => simp at h
  | cons c t ih =>
    by_cases ho : c = '['
    · subst ho
      rw [closeReference_open] at h
      obtain ⟨body, rfl, hb⟩ := map_cons_eq_some h
      obtain ⟨inner, mid, hi, hm⟩ := ih hb
      exact ⟨'[' :: inner, mid, by rw [closeBinding_open, hi]; rfl, hm⟩
    · by_cases hc : c = ']'
      · subst hc
        rw [closeReference_close] at h
        obtain ⟨body, rfl, hb⟩ := map_cons_eq_some h
        cases depth with
        | zero =>
          have ht : t = body ++ '#' :: rest := eq_of_closeReference hb
          rw [ht] at hb
          exact ⟨[], body, closeBinding_close_zero body, hb⟩
        | succ depth =>
          obtain ⟨inner, mid, hi, hm⟩ := ih hb
          exact ⟨']' :: inner, mid, by rw [closeBinding_close_succ, hi]; rfl, hm⟩
      · rw [closeReference_other ho hc (fun _ => Nat.succ_ne_zero depth)] at h
        obtain ⟨body, rfl, hb⟩ := map_cons_eq_some h
        obtain ⟨inner, mid, hi, hm⟩ := ih hb
        exact ⟨c :: inner, mid, by rw [closeBinding_other ho hc, hi]; rfl, hm⟩

/-- Where a bracket opens in the body of a reference, a binding is closed in it, and the body goes
on behind the binding. -/
theorem exists_closeBinding_of_body_open {t rest : Text}
    (h : closeReference 0 ('[' :: t ++ '#' :: rest) = some ('[' :: t, rest)) :
    ∃ inner mid, closeBinding 0 t = some (inner, mid) ∧
      closeReference 0 (mid ++ '#' :: rest) = some (mid, rest) := by
  rw [List.cons_append, closeReference_open] at h
  obtain ⟨t', ht, h⟩ := map_cons_eq_some h
  obtain rfl : t = t' := (List.cons.inj ht).2
  exact exists_closeBinding_of_closeReference h

/-- Any other character of the body of a reference is no hash, and the body goes on behind it. -/
theorem closeReference_body_other {c : Char} {t rest : Text} (ho : c ≠ '[')
    (h : closeReference 0 (c :: t ++ '#' :: rest) = some (c :: t, rest)) :
    c ≠ '#' ∧ closeReference 0 (t ++ '#' :: rest) = some (t, rest) := by
  have hh : c ≠ '#' := by
    rintro rfl
    rw [List.cons_append, closeReference_hash] at h
    simp at h
  refine ⟨hh, ?_⟩
  rw [List.cons_append] at h
  by_cases hc : c = ']'
  · subst hc
    rw [closeReference_close] at h
    obtain ⟨t', ht, h⟩ := map_cons_eq_some h
    obtain rfl : t = t' := (List.cons.inj ht).2
    exact h
  · rw [closeReference_other ho hc (fun hch => absurd hch hh)] at h
    obtain ⟨t', ht, h⟩ := map_cons_eq_some h
    obtain rfl : t = t' := (List.cons.inj ht).2
    exact h

/-- The path of a closed reference holds neither a hash nor an opening bracket. -/
theorem not_mem_path_of_closeReference {body rest : Text}
    (h : closeReference 0 (body ++ '#' :: rest) = some (body, rest)) :
    '#' ∉ (pathAndBindings body).1 ∧ '[' ∉ (pathAndBindings body).1 := by
  fun_induction pathAndBindings body with
  | case1 => simp
  | case2 t inner mid hc path bindings hp ih =>
    obtain ⟨inner', mid', hb, hm⟩ := exists_closeBinding_of_body_open h
    rw [hc] at hb
    cases hb
    simpa [hp] using ih hm
  | case3 t hc path bindings hp ih =>
    -- The bracket is closed after all: the reference is.
    obtain ⟨inner, mid, hb, -⟩ := exists_closeBinding_of_body_open h
    rw [hc] at hb
    cases hb
  | case4 c t ho path bindings hp ih =>
    obtain ⟨hh, hrest⟩ := closeReference_body_other ho h
    have hpath := ih hrest
    rw [hp] at hpath
    exact ⟨by simpa [Ne.symm hh] using hpath.1, by simpa [Ne.symm ho] using hpath.2⟩

/-- A body without hashes and opening brackets reaches to the hash after it. -/
theorem closeReference_of_not_mem {body : Text} (hh : '#' ∉ body) (ho : '[' ∉ body) (rest : Text) :
    closeReference 0 (body ++ '#' :: rest) = some (body, rest) := by
  induction body with
  | nil => exact closeReference_hash rest
  | cons c t ih =>
    have hc : c ≠ '#' ∧ c ≠ '[' :=
      ⟨fun h => hh (h ▸ List.mem_cons_self), fun h => ho (h ▸ List.mem_cons_self)⟩
    have ht := ih (fun h => hh (List.mem_cons_of_mem c h)) (fun h => ho (List.mem_cons_of_mem c h))
    rw [List.cons_append]
    by_cases hcl : c = ']'
    · subst hcl
      rw [closeReference_close, ht]
      rfl
    · rw [closeReference_other hc.2 hcl (fun h => absurd h hc.1), ht]
      rfl

/-- A body without opening brackets is all path. -/
theorem pathAndBindings_of_not_mem {body : Text} (ho : '[' ∉ body) :
    pathAndBindings body = (body, []) := by
  induction body with
  | nil =>
    rw [pathAndBindings]
  | cons c t ih =>
    have hc : c ≠ '[' := fun h => ho (h ▸ List.mem_cons_self)
    rw [pathAndBindings, if_neg hc, ih fun h => ho (List.mem_cons_of_mem c h)]

end TextGrammar
