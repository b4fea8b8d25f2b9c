import TextGrammar.Proofs.Rule.Reading
import Mathlib.Data.List.Chain

/-!
# Reading loses nothing and is canonical

The parts of a rule are written one after the other in the rule. They are as large as they can be:
literal text is never empty and never beside literal text. And they stand for themselves: each part,
read alone, is that part again, so no complete construct is left inside literal text.

## Main definitions

* `Node.Separated` — no two literal texts stand side by side.

## Main results

* `separated_parse`, `ne_nil_of_text_mem_parse` — literal texts stand apart and are not empty.
* `parse_raw_of_mem_parse` — a part read alone is itself.
* `parse_canonical` — the parts of a rule are the rule, and canonical.
-/

namespace TextGrammar

namespace Node

/-- Whether a part is literal text. -/
def isText : Node → Bool
  | text _ => true
  | _ => false

/-- No two literal texts stand side by side. -/
def Separated (nodes : List Node) : Prop :=
  nodes.IsChain fun a b => ¬ (a.isText = true ∧ b.isText = true)

instance : DecidablePred Separated := fun nodes =>
  inferInstanceAs (Decidable (nodes.IsChain _))

/-- A construct may stand before any parts. -/
theorem separated_cons {node : Node} {nodes : List Node} (h : node.isText = false)
    (hs : Separated nodes) : Separated (node :: nodes) := by
  cases nodes with
  | nil => exact List.isChain_singleton node
  | cons next nodes => exact List.isChain_cons_cons.2 ⟨by simp [h], hs⟩

/-- A literal character joins the text that follows. -/
theorem separated_literal (c : Char) {nodes : List Node} (hs : Separated nodes) :
    Separated (literal c nodes) := by
  rcases nodes with _ | ⟨value | b | r, nodes⟩
  · exact List.isChain_singleton _
  · cases nodes with
    | nil => exact List.isChain_singleton _
    | cons next nodes => exact List.isChain_cons_cons.2 (List.isChain_cons_cons.1 hs)
  · exact List.isChain_cons_cons.2 ⟨by simp [isText], hs⟩
  · exact List.isChain_cons_cons.2 ⟨by simp [isText], hs⟩

/-- A literal character becomes a text of its own, or the start of the text that followed it. -/
theorem eq_or_mem_of_mem_literal {c : Char} {nodes : List Node} {node : Node}
    (h : node ∈ literal c nodes) :
    node = text [c] ∨ (∃ value, nodes.head? = some (text value) ∧ node = text (c :: value)) ∨
      node ∈ nodes := by
  rcases nodes with _ | ⟨value | b | r, nodes⟩
  · exact .inl (List.mem_singleton.1 h)
  · rcases List.mem_cons.1 h with rfl | h
    · exact .inr (.inl ⟨value, rfl, rfl⟩)
    · exact .inr (.inr (List.mem_cons_of_mem _ h))
  all_goals exact (List.mem_cons.1 h).imp id .inr

end Node

/-! ## Literal texts -/

/-- No two literal texts of a rule stand side by side. -/
theorem separated_parse (rule : Text) : Node.Separated (parse rule) := by
  fun_induction parse rule with
  | case1 => exact List.isChain_nil
  | case2 => exact List.isChain_singleton _
  | case3 t rest h ih => exact Node.separated_literal _ ih
  | case4 t body rest h hb ih => exact Node.separated_cons rfl ih
  | case5 => exact List.isChain_singleton _
  | case6 t inner rest h hc ih => exact Node.separated_cons rfl ih
  | case7 c t hh ho ih => exact Node.separated_literal c ih

/-- No literal text of a rule is empty. -/
theorem ne_nil_of_text_mem_parse {rule value : Text} (h : .text value ∈ parse rule) :
    value ≠ [] := by
  have hliteral : ∀ {c : Char} {nodes : List Node}, (.text value ∈ nodes → value ≠ []) →
      .text value ∈ Node.literal c nodes → value ≠ [] := by
    intro c nodes ih hm
    rcases Node.eq_or_mem_of_mem_literal hm with heq | ⟨tail, -, heq⟩ | hm
    · cases heq
      exact List.cons_ne_nil c []
    · cases heq
      exact List.cons_ne_nil c tail
    · exact ih hm
  fun_induction parse rule with
  | case1 => cases h
  | case2 => simp_all
  | case3 t rest hc ih => exact hliteral ih h
  | case4 t body rest hc hb ih =>
    rcases List.mem_cons.1 h with heq | h
    · cases heq
    · exact ih h
  | case5 => simp_all
  | case6 t inner rest hc hh ih =>
    rcases List.mem_cons.1 h with heq | h
    · cases heq
    · exact ih h
  | case7 c t hh ho ih => exact hliteral ih h

/-- A rule begins with the literal text that is its first part. -/
theorem exists_eq_append_of_head?_parse {rule value : Text}
    (h : (parse rule).head? = some (.text value)) : ∃ rest, rule = value ++ rest := by
  obtain ⟨nodes, hnodes⟩ := List.head?_eq_some_iff.1 h
  have hrule := flatMap_raw_parse rule
  rw [hnodes, List.flatMap_cons, Node.raw_text] at hrule
  exact ⟨_, hrule.symm⟩

/-! ## Parts read alone -/

/-- A reference that is closed is read alone as itself. -/
theorem parse_raw_ofBody {t body rest : Text} (h : closeReference 0 t = some (body, rest))
    (hb : body ≠ []) :
    parse (Reference.ofBody body).raw = [.reference (Reference.ofBody body)] := by
  rw [Reference.raw_ofBody, List.cons_append, parse_reference (closeReference_of_rest h []) hb,
    parse_nil]

/-- A binding that is closed is read alone as itself. -/
theorem parse_raw_ofInner {t inner rest : Text} (h : closeBinding 0 t = some (inner, rest)) :
    parse (Binding.ofInner inner).raw = [.binding (Binding.ofInner inner)] := by
  rw [Binding.raw, Binding.inner_ofInner, List.cons_append,
    parse_binding (closeBinding_of_rest h []), parse_nil]

/-- A character that is literal before the rest of a rule, before the text that the rest begins with
and alone leaves all parts reading as themselves. -/
theorem parse_raw_of_mem_literal {c : Char} {t : Text} (hone : parse [c] = [.text [c]])
    (hhead : ∀ value, (parse t).head? = some (.text value) →
      parse (c :: value) = Node.literal c (parse value))
    (ih : ∀ node ∈ parse t, parse node.raw = [node]) :
    ∀ node ∈ Node.literal c (parse t), parse node.raw = [node] := by
  intro node hn
  rcases Node.eq_or_mem_of_mem_literal hn with rfl | ⟨value, hv, rfl⟩ | hn
  · exact hone
  · have hvalue : parse value = [.text value] := ih _ (List.mem_of_head? hv)
    rw [Node.raw_text, hhead value hv, hvalue]
    rfl
  · exact ih node hn

/-- A part of a rule read alone is itself. -/
theorem parse_raw_of_mem_parse (rule : Text) : ∀ node ∈ parse rule, parse node.raw = [node] := by
  fun_induction parse rule with
  | case1 => exact fun node hn => (List.not_mem_nil hn).elim
  | case2 t h =>
    intro node hn
    rw [List.mem_singleton.1 hn]
    exact parse_open_hash h
  | case3 t rest h ih =>
    refine parse_raw_of_mem_literal (parse_open_hash (closeReference_nil 0)) ?_ ih
    -- The text behind the first hash begins with the second one.
    intro value hv
    obtain ⟨rest', hrest⟩ := exists_eq_append_of_head?_parse hv
    have ht : t = '#' :: rest := eq_of_closeReference h
    cases value with
    | nil => exact absurd rfl (ne_nil_of_text_mem_parse (List.mem_of_head? hv))
    | cons d value =>
      obtain rfl : '#' = d := (List.cons.inj (ht.symm.trans hrest)).1
      exact parse_hash_hash value
  | case4 t body rest h hb ih =>
    intro node hn
    rcases List.mem_cons.1 hn with rfl | hn
    · exact parse_raw_ofBody h hb
    · exact ih node hn
  | case5 t h hh =>
    intro node hn
    rw [List.mem_singleton.1 hn]
    exact parse_open_bracket h
  | case6 t inner rest h hc ih =>
    intro node hn
    rcases List.mem_cons.1 hn with rfl | hn
    · exact parse_raw_ofInner h
    · exact ih node hn
  | case7 c t hh ho ih =>
    refine parse_raw_of_mem_literal ?_ (fun value _ => parse_other hh ho value) ih
    rw [parse_other hh ho, parse_nil]
    rfl

/-- What the parts of a rule are written with, one after the other, is the rule; literal texts are
not empty and stand apart; and every part, read alone, is that part again. -/
theorem parse_canonical (rule : Text) :
    (parse rule).flatMap Node.raw = rule ∧
    (∀ value, .text value ∈ parse rule → value ≠ []) ∧
    Node.Separated (parse rule) ∧
    ∀ node ∈ parse rule, parse node.raw = [node] := by
  refine ⟨flatMap_raw_parse rule, ?_, separated_parse rule, parse_raw_of_mem_parse rule⟩
  intro value hv
  exact ne_nil_of_text_mem_parse hv

end TextGrammar
