import TextGrammar.Rule.Parse

/-!
# Every construct of a rule

The rule of a binding is a rule itself, with constructs of its own. Walking visits them all: a
construct before those inside it, and all in the order in which they are written. The walk ends
because the rule of a binding is shorter than the rule the binding stands in.

## Main definitions

* `referencesIn`, `bindingsIn` — every reference and every binding of a rule, at any depth.
* `Binding.references`, `Binding.withNested` — those that one binding brings in.
-/

namespace TextGrammar

/-! ## Bindings lie inside their parts, parts inside their rule -/

/-- A binding taken out of a reference is written inside the reference. -/
theorem length_raw_le_of_mem_pathAndBindings {body : Text} {b : Binding}
    (h : b ∈ (pathAndBindings body).2) : b.raw.length ≤ body.length := by
  fun_induction pathAndBindings body with
  | case1 => simp at h
  | case2 t inner rest hc path bindings hp ih =>
    have hl := congrArg List.length (eq_of_closeBinding hc)
    simp only [List.length_append, List.length_cons] at hl
    simp only [List.mem_cons] at h
    rcases h with rfl | h
    · simp [Binding.raw, hl]
    · have := ih (by simpa [hp] using h)
      simp
      omega
  | case3 t hc path bindings hp ih =>
    have := ih (by simpa [hp] using h)
    simp
    omega
  | case4 c t hc path bindings hp ih =>
    have := ih (by simpa [hp] using h)
    simp
    omega

/-- A literal character adds no part that holds a binding. -/
theorem Node.mem_of_mem_literal {c : Char} {nodes : List Node} {node : Node} {b : Binding}
    (hn : node ∈ literal c nodes) (hb : b ∈ node.bindings) : node ∈ nodes := by
  unfold literal at hn
  split at hn <;>
    · simp only [List.mem_cons] at hn
      rcases hn with rfl | hn
      · simp [Node.bindings] at hb
      · simp [hn]

/-- A binding that a part of a rule holds is written inside the part. -/
theorem Node.length_raw_le_of_mem_bindings {rule : Text} {node : Node} {b : Binding}
    (hn : node ∈ parse rule) (hb : b ∈ node.bindings) : b.raw.length ≤ node.raw.length := by
  fun_induction parse rule with
  | case1 => simp at hn
  | case2 =>
    simp only [List.mem_singleton] at hn
    simp [hn, Node.bindings] at hb
  | case3 t rest h ih => exact ih (mem_of_mem_literal hn hb)
  | case4 t body rest h hbody ih =>
    simp only [List.mem_cons] at hn
    rcases hn with rfl | hn
    · have := length_raw_le_of_mem_pathAndBindings
        (show b ∈ (pathAndBindings body).2 by simpa [Node.bindings, Reference.ofBody] using hb)
      simp
      omega
    · exact ih hn
  | case5 =>
    simp only [List.mem_singleton] at hn
    simp [hn, Node.bindings] at hb
  | case6 t inner rest h hc ih =>
    simp only [List.mem_cons] at hn
    rcases hn with rfl | hn
    · simp only [Node.bindings, List.mem_singleton] at hb
      simp [hb]
    · exact ih hn
  | case7 c t hc hc' ih => exact ih (mem_of_mem_literal hn hb)

/-- A part of a rule is no longer than the rule. -/
theorem Node.length_raw_le_of_mem_parse {rule : Text} {node : Node} (hn : node ∈ parse rule) :
    node.raw.length ≤ rule.length := by
  have h := (List.sublist_flatten_of_mem (List.mem_map_of_mem (f := Node.raw) hn)).length_le
  have hr := congrArg List.length (flatMap_raw_parse rule)
  rw [List.flatMap_def] at hr
  omega

/-- The rule of a binding is shorter than the rule the binding stands in. -/
theorem length_rule_lt {rule inner : Text} {node : Node} {b : Binding}
    (hn : node ∈ parse rule) (hb : b ∈ node.bindings) (hr : b.rule = some inner) :
    inner.length < rule.length := by
  have h₁ := Node.length_raw_le_of_mem_bindings hn hb
  have h₂ := Node.length_raw_le_of_mem_parse hn
  simp only [Binding.raw, Binding.inner, hr, List.length_cons, List.length_append] at h₁
  omega

/-! ## The walks -/

/-- Every reference of a rule at any depth, each before those inside its bindings. -/
def referencesIn (rule : Text) : List Reference :=
  (parse rule).attach.flatMap fun ⟨node, _hn⟩ =>
    node.reference?.toList ++ node.bindings.attach.flatMap fun ⟨b, _hb⟩ =>
      match _hr : b.rule with
      | none => [b.asReference]
      | some inner => referencesIn inner
termination_by rule.length
decreasing_by exact length_rule_lt _hn _hb _hr

/-- Every binding of a rule at any depth, each before those inside its rule. -/
def bindingsIn (rule : Text) : List Binding :=
  (parse rule).attach.flatMap fun ⟨node, _hn⟩ =>
    node.bindings.attach.flatMap fun ⟨b, _hb⟩ =>
      b :: match _hr : b.rule with
        | none => []
        | some inner => bindingsIn inner
termination_by rule.length
decreasing_by exact length_rule_lt _hn _hb _hr

/-- The references that a binding asks to expand. -/
def Binding.references (b : Binding) : List Reference :=
  match b.rule with
  | none => [b.asReference]
  | some inner => referencesIn inner

def Binding.withNested (b : Binding) : List Binding :=
  b :: match b.rule with
    | none => []
    | some inner => bindingsIn inner

/-- The references of a rule are those of its parts in order. -/
theorem referencesIn_eq (rule : Text) :
    referencesIn rule = (parse rule).flatMap fun node =>
      node.reference?.toList ++ node.bindings.flatMap Binding.references := by
  rw [referencesIn]
  refine (List.flatMap_subtype ?_).trans (by rw [List.unattach_attach])
  intro node hn
  refine congrArg (node.reference?.toList ++ ·) ?_
  refine (List.flatMap_subtype ?_).trans (by rw [List.unattach_attach])
  intro b hb
  dsimp only [Binding.references]
  split <;> simp_all

/-- The bindings of a rule are those of its parts in order. -/
theorem bindingsIn_eq (rule : Text) :
    bindingsIn rule = (parse rule).flatMap fun node =>
      node.bindings.flatMap Binding.withNested := by
  rw [bindingsIn]
  refine (List.flatMap_subtype ?_).trans (by rw [List.unattach_attach])
  intro node hn
  refine (List.flatMap_subtype ?_).trans (by rw [List.unattach_attach])
  intro b hb
  dsimp only [Binding.withNested]
  split <;> simp_all

end TextGrammar
