import TextGrammar.Rule.Node

/-!
# Where a construct ends

A binding ends at the bracket that closes the one it was opened with. A reference ends at the first
hash outside every bracket, so the hashes of a binding's rule never end the reference around it; a
closing bracket that closes nothing is passed over there.

## Main definitions

* `closeBinding`, `closeReference` — what a construct holds, and what follows it.
* `pathAndBindings` — the text of a reference's path, and its bindings.
-/

namespace TextGrammar

/-- The text up to the bracket that closes a binding, and the text after it; `depth` brackets more
have been opened since the binding's own. `none` when the binding is never closed. -/
def closeBinding : (depth : Nat) → Text → Option (Text × Text)
  | _, [] => none
  | depth, c :: t =>
    if c = '[' then (closeBinding (depth + 1) t).map fun p => (c :: p.1, p.2)
    else if c = ']' then
      match depth with
      | 0 => some ([], t)
      | depth + 1 => (closeBinding depth t).map fun p => (c :: p.1, p.2)
    else (closeBinding depth t).map fun p => (c :: p.1, p.2)

/-- The text up to the hash that closes a reference, and the text after it; `depth` brackets are
open. `none` when the reference is never closed. -/
def closeReference : (depth : Nat) → Text → Option (Text × Text)
  | _, [] => none
  | depth, c :: t =>
    if c = '#' ∧ depth = 0 then some ([], t)
    else
      let depth := if c = '[' then depth + 1 else if c = ']' then depth - 1 else depth
      (closeReference depth t).map fun p => (c :: p.1, p.2)

/-- A closed binding and what follows it make up the text. -/
theorem eq_of_closeBinding {depth : Nat} {t inner rest : Text}
    (h : closeBinding depth t = some (inner, rest)) : t = inner ++ ']' :: rest := by
  induction t generalizing depth inner with
  | nil => simp [closeBinding] at h
  | cons c t ih =>
    unfold closeBinding at h
    split at h
    · obtain ⟨p, hp, heq⟩ := Option.map_eq_some_iff.1 h
      obtain ⟨rfl, rfl⟩ := Prod.mk.inj heq
      simp [ih hp]
    · split at h
      · split at h
        · simp_all
        · obtain ⟨p, hp, heq⟩ := Option.map_eq_some_iff.1 h
          obtain ⟨rfl, rfl⟩ := Prod.mk.inj heq
          simp [ih hp]
      · obtain ⟨p, hp, heq⟩ := Option.map_eq_some_iff.1 h
        obtain ⟨rfl, rfl⟩ := Prod.mk.inj heq
        simp [ih hp]

/-- A closed reference and what follows it make up the text. -/
theorem eq_of_closeReference {depth : Nat} {t body rest : Text}
    (h : closeReference depth t = some (body, rest)) : t = body ++ '#' :: rest := by
  induction t generalizing depth body with
  | nil => simp [closeReference] at h
  | cons c t ih =>
    unfold closeReference at h
    split at h
    · simp_all
    · obtain ⟨p, hp, heq⟩ := Option.map_eq_some_iff.1 h
      obtain ⟨rfl, rfl⟩ := Prod.mk.inj heq
      simp [ih hp]

theorem length_lt_of_closeBinding {depth : Nat} {t inner rest : Text}
    (h : closeBinding depth t = some (inner, rest)) : rest.length < t.length := by
  have := congrArg List.length (eq_of_closeBinding h)
  simp at this
  omega

theorem length_lt_of_closeReference {depth : Nat} {t body rest : Text}
    (h : closeReference depth t = some (body, rest)) : rest.length < t.length := by
  have := congrArg List.length (eq_of_closeReference h)
  simp at this
  omega

/-- The text that is left of a reference's body when its bindings are taken out, and the bindings
in order. An opening bracket that nothing closes is part of the text. -/
def pathAndBindings (body : Text) : Text × List Binding :=
  match body with
  | [] => ([], [])
  | c :: t =>
    if c = '[' then
      match _h : closeBinding 0 t with
      | some (inner, rest) =>
        let (path, bindings) := pathAndBindings rest
        (path, Binding.ofInner inner :: bindings)
      | none =>
        let (path, bindings) := pathAndBindings t
        (c :: path, bindings)
    else
      let (path, bindings) := pathAndBindings t
      (c :: path, bindings)
termination_by body.length
decreasing_by
  · have := length_lt_of_closeBinding _h
    simp
    omega
  · simp
  · simp

/-- The reference that is written with `body` between its hashes. -/
def Reference.ofBody (body : Text) : Reference :=
  let (path, bindings) := pathAndBindings body
  let (symbol, modifiers) := Text.parts '.' path
  ⟨'#' :: body ++ ['#'], symbol, modifiers, bindings⟩

@[simp] theorem Reference.raw_ofBody (body : Text) :
    (Reference.ofBody body).raw = '#' :: body ++ ['#'] := rfl

end TextGrammar
