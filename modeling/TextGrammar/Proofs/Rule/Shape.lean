import TextGrammar.Proofs.Rule.Written

/-!
# The shape of what is read

Reading makes references and bindings out of every text, and what it makes is well written even when
the rule is not. The body of a reference is closed by a hash outside all brackets, so each bracket
that opens in it is closed in it: the body is taken apart into whole bindings and plain text, and no
opening bracket is ever left over.

## Main definitions

* `TakenApart` — a body comes apart into a path and bindings with no opening bracket left over.

## Main results

* `takenApart_of_closeReference` — the body of a closed reference comes apart so.
* `TakenApart.exists_body` — what comes apart so is text and bindings by turns.
* `parse_shape` — the references and bindings of a rule are well written.
-/

namespace TextGrammar

/-! ## Bodies without a bracket left over -/

/-- A body comes apart into a path and bindings: where a bracket opens, a binding is closed and is
taken out whole, and any other character is part of the path. There is no way to go on at an opening
bracket that nothing closes. -/
inductive TakenApart : (body path : Text) → List Binding → Prop where
  /-- Nothing is left. -/
  | nil : TakenApart [] [] []
  /-- A binding is taken out. -/
  | binding {t inner rest path : Text} {bindings : List Binding}
    (hclose : closeBinding 0 t = some (inner, rest)) (hrest : TakenApart rest path bindings) :
    TakenApart ('[' :: t) path (Binding.ofInner inner :: bindings)
  /-- A character is part of the path. -/
  | other {c : Char} {t path : Text} {bindings : List Binding} (ho : c ≠ '[')
    (ht : TakenApart t path bindings) : TakenApart (c :: t) (c :: path) bindings

/-- When no opening bracket is left over, the path and the bindings are those that are read. -/
theorem TakenApart.pathAndBindings_eq {body path : Text} {bindings : List Binding}
    (h : TakenApart body path bindings) : pathAndBindings body = (path, bindings) := by
  induction h with
  | nil => exact pathAndBindings_of_not_mem List.not_mem_nil
  | @binding t inner rest path bindings hclose _ ih =>
    rw [pathAndBindings, if_pos rfl]
    split
    · rename_i inner' rest' h
      rw [hclose] at h
      cases h
      rw [ih]
    · rename_i h
      rw [hclose] at h
      cases h
  | other ho _ ih => rw [pathAndBindings, if_neg ho, ih]

/-- In the body of a closed reference no opening bracket is left over. -/
theorem takenApart_of_closeReference {body rest : Text}
    (h : closeReference 0 (body ++ '#' :: rest) = some (body, rest)) :
    TakenApart body (pathAndBindings body).1 (pathAndBindings body).2 := by
  fun_induction pathAndBindings body with
  | case1 => exact .nil
  | case2 t inner mid hc path bindings hp ih =>
    obtain ⟨inner', mid', hb, hm⟩ := exists_closeBinding_of_body_open h
    rw [hc] at hb
    cases hb
    rw [hp] at ih
    exact .binding hc (ih hm)
  | case3 t hc path bindings hp ih =>
    obtain ⟨inner, mid, hb, -⟩ := exists_closeBinding_of_body_open h
    rw [hc] at hb
    cases hb
  | case4 c t ho path bindings hp ih =>
    obtain ⟨-, hrest⟩ := closeReference_body_other ho h
    rw [hp] at ih
    exact .other ho (ih hrest)

/-! ## Bindings and references -/

/-- A closed binding is well written. -/
theorem Binding.written_of_closeBinding {t inner rest : Text}
    (h : closeBinding 0 t = some (inner, rest)) : (Binding.ofInner inner).Written := by
  refine ⟨Binding.not_mem_name_ofInner inner, ?_⟩
  rw [Binding.inner_ofInner]
  exact balanced_of_closeBinding h

/-- What comes apart with a plain path is plain text and well-written bindings by turns. -/
theorem TakenApart.exists_body {t path : Text} {bindings : List Binding}
    (h : TakenApart t path bindings) (hp : Plain path) :
    ∃ body : Body, body.text = t ∧ body.path = path ∧ body.bindings = bindings ∧
      Plain body.first ∧ ∀ p ∈ body.more, p.1.Written ∧ Plain p.2 := by
  induction h with
  | nil => exact ⟨⟨[], []⟩, rfl, rfl, rfl, plain_nil, fun p hp => (List.not_mem_nil hp).elim⟩
  | @binding t inner rest path bindings hclose _ ih =>
    obtain ⟨⟨first, more⟩, rfl, rfl, rfl, hfirst, hmore⟩ := ih hp
    have hwritten := Binding.written_of_closeBinding hclose
    refine ⟨⟨[], (Binding.ofInner inner, first) :: more⟩, ?_, ?_, rfl, plain_nil,
      List.forall_mem_cons.2 ⟨⟨hwritten, hfirst⟩, hmore⟩⟩
    · rw [eq_of_closeBinding hclose]
      simp [Body.text, Binding.raw]
    · simp [Body.path]
  | @other c t path bindings ho _ ih =>
    obtain ⟨⟨first, more⟩, rfl, rfl, rfl, hfirst, hmore⟩ := ih hp.of_cons
    have hc : c ≠ '#' := fun h => hp.1 (h ▸ List.mem_cons_self)
    refine ⟨⟨c :: first, more⟩, rfl, rfl, rfl, ?_, hmore⟩
    exact ⟨by simp [Ne.symm hc, hfirst.1], by simp [Ne.symm ho, hfirst.2]⟩

/-- A literal character is no binding. -/
theorem Node.binding_mem_literal {c : Char} {nodes : List Node} {b : Binding} :
    .binding b ∈ literal c nodes ↔ .binding b ∈ nodes := by
  unfold literal
  split <;> simp

/-- A binding outside every reference is closed. -/
theorem exists_inner_of_mem_parse {rule : Text} {b : Binding} (h : .binding b ∈ parse rule) :
    ∃ t inner rest, closeBinding 0 t = some (inner, rest) ∧ b = Binding.ofInner inner := by
  fun_induction parse rule with
  | case1 => cases h
  | case2 => simp at h
  | case3 t rest hc ih => exact ih (Node.binding_mem_literal.1 h)
  | case4 t body rest hc hb ih =>
    rcases List.mem_cons.1 h with hr | h
    · cases hr
    · exact ih h
  | case5 => simp at h
  | case6 t inner rest hc hh ih =>
    rcases List.mem_cons.1 h with hr | h
    · cases hr
      exact ⟨t, inner, rest, hc, rfl⟩
    · exact ih h
  | case7 c t hh ho ih => exact ih (Node.binding_mem_literal.1 h)

/-- The reference of a closed body is written with that body, taken apart. -/
theorem exists_writtenAs_ofBody {t rest : Text} (hne : t ≠ [])
    (h : closeReference 0 (t ++ '#' :: rest) = some (t, rest)) :
    ∃ body : Body, (Reference.ofBody t).WrittenAs body ∧
      TakenApart body.text body.path body.bindings := by
  have hapart := takenApart_of_closeReference h
  obtain ⟨body, htext, hpath, hbindings, hfirst, hmore⟩ :=
    hapart.exists_body (not_mem_path_of_closeReference h)
  refine ⟨body, ⟨⟨htext ▸ hne, hfirst, hmore⟩, ?_, hbindings.symm, ?_, ?_⟩, ?_⟩
  · rw [Reference.raw_ofBody, htext]
  · rw [hpath]
    exact Text.joined_parts '.' _
  · intro part hp
    exact Text.not_mem_of_mem_parts hp
  · rw [htext, hpath, hbindings]
    exact hapart

/-- What is read of any rule is well written. A reference is written with a body between two hashes,
which is not empty and holds plain text and its bindings by turns; without the bindings it is the
symbol and the modifiers, joined by full stops. It comes apart with no opening bracket left over,
and none of its names holds a hash, an opening bracket or a full stop. A binding, inside a reference
or outside, holds a name without a colon and, behind a colon, its rule, with balanced brackets. -/
theorem parse_shape (rule : Text) :
    (∀ r, .reference r ∈ parse rule →
      (∃ body : Body, r.WrittenAs body ∧ TakenApart body.text body.path body.bindings) ∧
      ∀ part ∈ r.symbol :: r.modifiers, Plain part ∧ '.' ∉ part) ∧
    ∀ node ∈ parse rule, ∀ b ∈ node.bindings, b.Written := by
  have hwritten : ∀ r, .reference r ∈ parse rule →
      ∃ body : Body, r.WrittenAs body ∧ TakenApart body.text body.path body.bindings := by
    intro r hr
    obtain ⟨t, rest, hne, hc, rfl⟩ := exists_body_of_mem_parse hr
    exact exists_writtenAs_ofBody hne hc
  refine ⟨fun r hr => ⟨hwritten r hr, plain_names_of_mem_parse hr⟩, fun node hn b hb => ?_⟩
  cases node with
  | text value => cases hb
  | binding outside =>
    obtain rfl : b = outside := List.mem_singleton.1 hb
    obtain ⟨t, inner, rest, hc, rfl⟩ := exists_inner_of_mem_parse hn
    exact Binding.written_of_closeBinding hc
  | reference r =>
    obtain ⟨body, hbody, -⟩ := hwritten r hn
    have hin : b ∈ body.bindings := hbody.bindings ▸ hb
    obtain ⟨p, hp, rfl⟩ := List.mem_map.1 hin
    exact (hbody.written.2.2 p hp).1

end TextGrammar
