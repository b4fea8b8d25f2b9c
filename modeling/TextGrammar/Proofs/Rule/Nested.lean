import TextGrammar.Proofs.Rule.WellFormed

/-!
# What lies inside a well-formed rule

Whatever a part of a rule asks to expand is a rule again: a binding asks for its own rule, or for
the reference that names it. In a well-formed rule these are well-formed and shorter, and the walks
see in them what they see of the binding; so what the walks see of a rule is seen level by level.

## Main definitions

* `Binding.asked` — the rule that a binding expands.

## Main results

* `WellFormedRule.asked`, `length_asked_lt` — what a binding asks for is well formed and shorter.
* `WellFormedRule.mem_referencesIn_iff`, `WellFormedRule.mem_bindingsIn_iff` — the walks, level by
  level.
-/

namespace TextGrammar

/-- The rule that a binding expands: its own, or the reference that names it. -/
def Binding.asked (b : Binding) : Text := b.rule.getD b.asReference.raw

theorem Binding.asked_of_none {b : Binding} (h : b.rule = none) : b.asked = b.asReference.raw := by
  rw [asked, h, Option.getD_none]

theorem Binding.asked_of_some {b : Binding} {inner : Text} (h : b.rule = some inner) :
    b.asked = inner := by
  rw [asked, h, Option.getD_some]

/-! ## Rules without nested ones -/

/-- A plain text has no constructs. -/
theorem referencesIn_of_plain {t : Text} (h : Plain t) : referencesIn t = [] := by
  rw [referencesIn_eq, parse_of_plain h]
  split <;> rfl

theorem bindingsIn_of_plain {t : Text} (h : Plain t) : bindingsIn t = [] := by
  rw [bindingsIn_eq, parse_of_plain h]
  split <;> rfl

/-- The reference that names a symbol whole has that symbol, and nothing else. -/
theorem SymbolName.ofBody_eq {name : Text} (h : SymbolName name) :
    Reference.ofBody name = ⟨'#' :: name ++ ['#'], name, [], []⟩ := by
  rw [Reference.ofBody, pathAndBindings_of_not_mem h.2.2.1]
  dsimp only
  rw [Text.parts_of_not_mem h.2.2.2]

/-- The walk over the reference that names a symbol whole sees that reference. -/
theorem SymbolName.referencesIn_eq {name : Text} (h : SymbolName name) :
    referencesIn ('#' :: name ++ ['#']) = [⟨'#' :: name ++ ['#'], name, [], []⟩] := by
  rw [TextGrammar.referencesIn_eq, parse_hash_symbol h, h.ofBody_eq]
  rfl

theorem SymbolName.bindingsIn_eq {name : Text} (h : SymbolName name) :
    bindingsIn ('#' :: name ++ ['#']) = [] := by
  rw [TextGrammar.bindingsIn_eq, parse_hash_symbol h, h.ofBody_eq]
  rfl

/-! ## The parts of a well-formed rule -/

variable {rule : Text} {r : Reference} {b : Binding}

/-- What a binding of a reference asks for is shorter than the rule that the reference stands in. -/
theorem length_asked_lt (hr : .reference r ∈ parse rule) (hb : b ∈ r.bindings) :
    b.asked.length < rule.length := by
  obtain ⟨body, rest, -, -, rfl⟩ := exists_body_of_mem_parse hr
  have hraw : b.raw.length ≤ body.length :=
    length_raw_le_of_mem_pathAndBindings
      (show b ∈ (pathAndBindings body).2 by simpa [Reference.ofBody] using hb)
  have hrule := Node.length_raw_le_of_mem_parse hr
  have hasked : b.asked.length ≤ b.raw.length := by
    cases hinner : b.rule with
    | none => simp [Binding.asked_of_none hinner, Binding.raw, Binding.inner, hinner,
        Binding.asReference]
    | some inner =>
      simp only [Binding.asked_of_some hinner, Binding.raw, Binding.inner, hinner,
        List.length_cons, List.length_append]
      omega
  simp only [Node.raw_reference, Reference.raw_ofBody, List.length_cons, List.length_append] at hrule
  omega

namespace WellFormedRule

/-- The parts of a well-formed rule are plain texts and references. -/
theorem isSound (h : WellFormedRule rule) {node : Node} (hn : node ∈ parse rule) :
    node.isSound = true :=
  ((isWellFormedRule_eq_true_iff rule).1 ((isWellFormedRule_iff rule).2 h) node hn).1

/-- What a binding of a well-formed rule asks for is well formed. -/
theorem asked (h : WellFormedRule rule) (hr : .reference r ∈ parse rule) (hb : b ∈ r.bindings) :
    WellFormedRule b.asked := by
  obtain ⟨-, -, hbound, hbare⟩ := h
  cases hinner : b.rule with
  | none =>
    rw [Binding.asked_of_none hinner]
    exact (hbare r b hr hb hinner).wellFormedRule_asReference
  | some inner =>
    rw [Binding.asked_of_some hinner]
    exact hbound r b inner hr hb hinner

/-- The walk over what a binding asks for sees the references of the binding. -/
theorem references_eq (h : WellFormedRule rule) (hr : .reference r ∈ parse rule)
    (hb : b ∈ r.bindings) : b.references = referencesIn b.asked := by
  obtain ⟨-, -, -, hbare⟩ := h
  cases hinner : b.rule with
  | none =>
    rw [Binding.references, hinner, Binding.asked_of_none hinner]
    exact (hbare r b hr hb hinner).referencesIn_eq.symm
  | some inner => rw [Binding.references, hinner, Binding.asked_of_some hinner]

/-- The walk over what a binding asks for sees the bindings inside the binding. -/
theorem withNested_eq (h : WellFormedRule rule) (hr : .reference r ∈ parse rule)
    (hb : b ∈ r.bindings) : b.withNested = b :: bindingsIn b.asked := by
  obtain ⟨-, -, -, hbare⟩ := h
  cases hinner : b.rule with
  | none =>
    rw [Binding.withNested, hinner, Binding.asked_of_none hinner]
    exact congrArg (b :: ·) (hbare r b hr hb hinner).bindingsIn_eq.symm
  | some inner => rw [Binding.withNested, hinner, Binding.asked_of_some hinner]

/-- A reference is seen in a rule when it is a part of the rule or is seen in what a binding of a
part asks for. -/
theorem mem_referencesIn_iff (h : WellFormedRule rule) {seen : Reference} :
    seen ∈ referencesIn rule ↔ .reference seen ∈ parse rule ∨
      ∃ r b, .reference r ∈ parse rule ∧ b ∈ r.bindings ∧ seen ∈ referencesIn b.asked := by
  rw [referencesIn_eq, List.mem_flatMap]
  constructor
  · rintro ⟨node, hn, hseen⟩
    rcases List.mem_append.1 hseen with hseen | hseen
    · cases node with
      | reference r =>
        obtain rfl : seen = r := List.mem_singleton.1 hseen
        exact .inl hn
      | _ => cases hseen
    · obtain ⟨b, hb, hinside⟩ := List.mem_flatMap.1 hseen
      cases node with
      | text value => cases hb
      | binding b => exact absurd (h.isSound hn) Bool.false_ne_true
      | reference r =>
        rw [h.references_eq hn hb] at hinside
        exact .inr ⟨r, b, hn, hb, hinside⟩
  · rintro (hn | ⟨r, b, hr, hb, hseen⟩)
    · exact ⟨_, hn, List.mem_append_left _ (List.mem_singleton.2 rfl)⟩
    · rw [← h.references_eq hr hb] at hseen
      exact ⟨_, hr, List.mem_append_right _ (List.mem_flatMap.2 ⟨b, hb, hseen⟩)⟩

/-- A binding is seen in a rule when a part of the rule holds it or it is seen in what a binding of
a part asks for. -/
theorem mem_bindingsIn_iff (h : WellFormedRule rule) {seen : Binding} :
    seen ∈ bindingsIn rule ↔ ∃ r b, .reference r ∈ parse rule ∧ b ∈ r.bindings ∧
      (seen = b ∨ seen ∈ bindingsIn b.asked) := by
  rw [bindingsIn_eq, List.mem_flatMap]
  constructor
  · rintro ⟨node, hn, hseen⟩
    obtain ⟨b, hb, hinside⟩ := List.mem_flatMap.1 hseen
    cases node with
    | text value => cases hb
    | binding b => exact absurd (h.isSound hn) Bool.false_ne_true
    | reference r =>
      rw [h.withNested_eq hn hb] at hinside
      exact ⟨r, b, hn, hb, List.mem_cons.1 hinside⟩
  · rintro ⟨r, b, hr, hb, hseen⟩
    refine ⟨_, hr, List.mem_flatMap.2 ⟨b, hb, ?_⟩⟩
    rw [h.withNested_eq hr hb]
    exact List.mem_cons.2 hseen

end WellFormedRule

end TextGrammar
