import TextGrammar.Proofs.Rule.Reading
import TextGrammar.Rule.Walk

/-!
# Well-formed rules

A rule is well formed when everything it opens is closed, every binding stands inside a reference,
and the bindings are well formed in turn. Plain texts, without a hash or an opening bracket, are the
rules that are expanded already.

## Main definitions

* `Plain` — a text without a hash and an opening bracket.
* `SymbolName` — a name that a reference can be made of.
* `WellFormedRule` — a rule all of whose constructs are complete; decided by `isWellFormedRule`.

## Main results

* `plain_names_of_mem_parse` — reading a rule leaks no delimiter into the names of a reference.
* `wellFormedRule_of_plain`, `SymbolName.wellFormedRule_asReference` — rules that expanding makes.
-/

namespace TextGrammar

/-- A text without a hash and without an opening bracket. -/
def Plain (t : Text) : Prop := '#' ∉ t ∧ '[' ∉ t

instance : DecidablePred Plain := fun t => inferInstanceAs (Decidable ('#' ∉ t ∧ '[' ∉ t))

/-- A name that is not empty and holds no hash, opening bracket or full stop. -/
def SymbolName (name : Text) : Prop := name ≠ [] ∧ '#' ∉ name ∧ '[' ∉ name ∧ '.' ∉ name

instance : DecidablePred SymbolName := fun name =>
  inferInstanceAs (Decidable (name ≠ [] ∧ '#' ∉ name ∧ '[' ∉ name ∧ '.' ∉ name))

/-- A rule whose text is plain, whose bindings all stand inside references, have well-formed rules
and, where they have no rule, ask for a name that a reference can be made of. -/
inductive WellFormedRule : Text → Prop where
  /-- The conditions on the parts of a rule. -/
  | intro {rule : Text}
      (text : ∀ value, .text value ∈ parse rule → Plain value)
      (outside : ∀ b, .binding b ∉ parse rule)
      (bound : ∀ r b inner, .reference r ∈ parse rule → b ∈ r.bindings → b.rule = some inner →
        WellFormedRule inner)
      (bare : ∀ r b, .reference r ∈ parse rule → b ∈ r.bindings → b.rule = none →
        SymbolName b.name) :
      WellFormedRule rule

/-! ## Deciding well-formedness -/

/-- Whether a part of a rule is no binding and, if it is text, plain. -/
def Node.isSound : Node → Bool
  | .text value => decide (Plain value)
  | .binding _ => false
  | .reference _ => true

/-- Whether a rule is well formed. -/
def isWellFormedRule (rule : Text) : Bool :=
  (parse rule).attach.all fun ⟨node, _hn⟩ =>
    node.isSound && node.bindings.attach.all fun ⟨b, _hb⟩ =>
      match _hr : b.rule with
      | none => decide (SymbolName b.name)
      | some inner => isWellFormedRule inner
termination_by rule.length
decreasing_by exact length_rule_lt _hn _hb _hr

/-- Whether a binding asks for a name that a reference can be made of, or has a well-formed rule. -/
def Binding.isSound (b : Binding) : Bool :=
  match b.rule with
  | none => decide (SymbolName b.name)
  | some inner => isWellFormedRule inner

theorem Binding.isSound_of_none {b : Binding} (h : b.rule = none) :
    b.isSound = decide (SymbolName b.name) := by
  rw [Binding.isSound, h]

theorem Binding.isSound_of_some {b : Binding} {inner : Text} (h : b.rule = some inner) :
    b.isSound = isWellFormedRule inner := by
  rw [Binding.isSound, h]

theorem isWellFormedRule_eq (rule : Text) : isWellFormedRule rule =
    (parse rule).all fun node => node.isSound && node.bindings.all Binding.isSound := by
  rw [isWellFormedRule]
  refine (List.all_subtype ?_).trans (by rw [List.unattach_attach])
  intro node hn
  refine congrArg (node.isSound && ·) ?_
  refine (List.all_subtype ?_).trans (by rw [List.unattach_attach])
  intro b hb
  dsimp only [Binding.isSound]
  split <;> simp_all

/-- What the check of a rule says about each of its parts. -/
theorem isWellFormedRule_eq_true_iff (rule : Text) : isWellFormedRule rule = true ↔
    ∀ node ∈ parse rule, node.isSound = true ∧ ∀ b ∈ node.bindings, b.isSound = true := by
  rw [isWellFormedRule_eq, List.all_eq_true]
  simp only [Bool.and_eq_true, List.all_eq_true]

theorem isWellFormedRule_iff (rule : Text) :
    isWellFormedRule rule = true ↔ WellFormedRule rule := by
  constructor
  · intro h
    induction hl : rule.length using Nat.strongRecOn generalizing rule with
    | ind n ih =>
      rw [isWellFormedRule_eq_true_iff] at h
      refine .intro (fun value hv => ?_) (fun b hb => ?_) (fun r b inner hr hb hi => ?_)
        (fun r b hr hb hi => ?_)
      · exact of_decide_eq_true (h _ hv).1
      · exact absurd (h _ hb).1 Bool.false_ne_true
      · have hlt : inner.length < n := hl ▸ length_rule_lt hr hb hi
        have hinner := (h _ hr).2 b hb
        rw [Binding.isSound_of_some hi] at hinner
        exact ih inner.length hlt inner hinner rfl
      · have hname := (h _ hr).2 b hb
        rw [Binding.isSound_of_none hi] at hname
        exact of_decide_eq_true hname
  · intro h
    induction h with
    | @intro rule text outside bound bare ih =>
      rw [isWellFormedRule_eq_true_iff]
      intro node hn
      cases node with
      | text value => exact ⟨decide_eq_true (text value hn), fun b hb => nomatch hb⟩
      | binding b => exact absurd hn (outside b)
      | reference r =>
        refine ⟨rfl, fun b hb => ?_⟩
        cases hr : b.rule with
        | none => rw [Binding.isSound_of_none hr, decide_eq_true (bare r b hn hb hr)]
        | some inner => rw [Binding.isSound_of_some hr, ih r b inner hn hb hr]

instance : DecidablePred WellFormedRule := fun rule =>
  decidable_of_iff (isWellFormedRule rule = true) (isWellFormedRule_iff rule)

/-! ## Plain texts -/

theorem hasSyntax_eq_false_iff {t : Text} : hasSyntax t = false ↔ Plain t := by
  rw [hasSyntax, List.any_eq_false]
  constructor
  · intro h
    exact ⟨fun hm => by simpa using h '#' hm, fun hm => by simpa using h '[' hm⟩
  · rintro ⟨hh, ho⟩ c hc hor
    rcases of_decide_eq_true (by simpa using hor) with rfl | rfl
    · exact hh hc
    · exact ho hc

theorem plain_nil : Plain [] := ⟨List.not_mem_nil, List.not_mem_nil⟩

theorem Plain.append {t u : Text} (ht : Plain t) (hu : Plain u) : Plain (t ++ u) := by
  constructor
  · intro h
    exact (List.mem_append.1 h).elim ht.1 hu.1
  · intro h
    exact (List.mem_append.1 h).elim ht.2 hu.2

theorem Plain.of_cons {c : Char} {t : Text} (h : Plain (c :: t)) : Plain t :=
  ⟨fun hm => h.1 (List.mem_cons_of_mem c hm), fun hm => h.2 (List.mem_cons_of_mem c hm)⟩

/-- A plain text is one part of itself, unless it is empty. -/
theorem parse_of_plain {t : Text} (h : Plain t) : parse t = if t = [] then [] else [.text t] := by
  induction t with
  | nil => exact parse_nil
  | cons c t ih =>
    have hh : c ≠ '#' := fun hc => h.1 (hc ▸ List.mem_cons_self)
    have ho : c ≠ '[' := fun hc => h.2 (hc ▸ List.mem_cons_self)
    rw [parse_other hh ho, ih h.of_cons, if_neg (List.cons_ne_nil c t)]
    cases t <;> rfl

/-- A rule that is expanded already is well formed. -/
theorem wellFormedRule_of_plain {t : Text} (h : Plain t) : WellFormedRule t := by
  have hnode : ∀ node ∈ parse t, node = .text t := by
    intro node hn
    rw [parse_of_plain h] at hn
    split at hn
    · cases hn
    · exact List.mem_singleton.1 hn
  refine .intro (fun value hv => ?_) (fun b hb => ?_) (fun r b inner hr => ?_) (fun r b hr => ?_)
  · cases hnode _ hv
    exact h
  · cases hnode _ hb
  · cases hnode _ hr
  · cases hnode _ hr

/-! ## Symbols -/

/-- A character of a part that a text is cut into is a character of the text. -/
theorem mem_of_mem_parts {mark c : Char} {t part : Text}
    (h : part ∈ (Text.parts mark t).1 :: (Text.parts mark t).2) (hc : c ∈ part) : c ∈ t := by
  induction t generalizing part with
  | nil =>
    rw [List.mem_singleton.1 h] at hc
    cases hc
  | cons d t ih =>
    simp only [Text.parts] at h
    by_cases hd : d = mark
    · rw [if_pos hd] at h
      rcases List.mem_cons.1 h with rfl | h
      · cases hc
      · exact List.mem_cons_of_mem d (ih h hc)
    · rw [if_neg hd] at h
      rcases List.mem_cons.1 h with rfl | h
      · rcases List.mem_cons.1 hc with rfl | hc
        · exact List.mem_cons_self
        · exact List.mem_cons_of_mem d (ih List.mem_cons_self hc)
      · exact List.mem_cons_of_mem d (ih (List.mem_cons_of_mem _ h) hc)

/-- A literal character is no reference. -/
theorem Node.reference_mem_literal {c : Char} {nodes : List Node} {r : Reference} :
    .reference r ∈ literal c nodes ↔ .reference r ∈ nodes := by
  unfold literal
  split <;> simp

/-- A reference of a rule is read from a body that is not empty and that a hash closes. -/
theorem exists_body_of_mem_parse {rule : Text} {r : Reference} (h : .reference r ∈ parse rule) :
    ∃ body rest, body ≠ [] ∧ closeReference 0 (body ++ '#' :: rest) = some (body, rest) ∧
      r = Reference.ofBody body := by
  fun_induction parse rule with
  | case1 => cases h
  | case2 => simp at h
  | case3 t rest hc ih => exact ih (Node.reference_mem_literal.1 h)
  | case4 t body rest hc hb ih =>
    rcases List.mem_cons.1 h with hr | h
    · cases hr
      have ht := eq_of_closeReference hc
      rw [ht] at hc
      exact ⟨body, rest, hb, hc, rfl⟩
    · exact ih h
  | case5 => simp at h
  | case6 t inner rest hc hh ih =>
    rcases List.mem_cons.1 h with hr | h
    · cases hr
    · exact ih h
  | case7 c t hh ho ih => exact ih (Node.reference_mem_literal.1 h)

/-- Reading a rule leaks no delimiter into the symbol and the modifiers of a reference. -/
theorem plain_names_of_mem_parse {rule : Text} {r : Reference} (h : .reference r ∈ parse rule) :
    ∀ part ∈ r.symbol :: r.modifiers, Plain part ∧ '.' ∉ part := by
  obtain ⟨body, rest, -, hc, rfl⟩ := exists_body_of_mem_parse h
  obtain ⟨hh, ho⟩ := not_mem_path_of_closeReference hc
  intro part hp
  refine ⟨⟨fun hm => hh ?_, fun hm => ho ?_⟩, Text.not_mem_of_mem_parts hp⟩
  · exact mem_of_mem_parts hp hm
  · exact mem_of_mem_parts hp hm

theorem plain_symbol_of_mem_parse {rule : Text} {r : Reference} (h : .reference r ∈ parse rule) :
    Plain r.symbol :=
  (plain_names_of_mem_parse h r.symbol List.mem_cons_self).1

/-- The reference that names a symbol whole is the only part of the rule it is written as. -/
theorem parse_hash_symbol {name : Text} (h : SymbolName name) :
    parse ('#' :: name ++ ['#']) = [.reference (Reference.ofBody name)] := by
  obtain ⟨hne, hh, ho, -⟩ := h
  rw [List.cons_append, parse_reference (closeReference_of_not_mem hh ho []) hne, parse_nil]

/-- What a binding without a rule asks to expand is well formed. -/
theorem SymbolName.wellFormedRule_asReference {b : Binding} (h : SymbolName b.name) :
    WellFormedRule b.asReference.raw := by
  have hbindings : (Reference.ofBody b.name).bindings = [] := by
    rw [Reference.ofBody, pathAndBindings_of_not_mem h.2.2.1]
  have hnode : ∀ node ∈ parse b.asReference.raw, node = .reference (Reference.ofBody b.name) := by
    intro node hn
    rw [show b.asReference.raw = '#' :: b.name ++ ['#'] from rfl, parse_hash_symbol h] at hn
    exact List.mem_singleton.1 hn
  refine .intro (fun value hv => ?_) (fun b' hb => ?_) (fun r b' inner hr hb => ?_)
    (fun r b' hr hb => ?_)
  · cases hnode _ hv
  · cases hnode _ hb
  · cases hnode _ hr
    rw [hbindings] at hb
    cases hb
  · cases hnode _ hr
    rw [hbindings] at hb
    cases hb

end TextGrammar
