import TextGrammar.Proofs.Rule.Canonical
import TextGrammar.Proofs.Rule.WellFormed

/-!
# Reading rules one after the other

A construct is looked for up to the end of the whole rule, so what is written behind a rule could
change where something in it closes. It does not when the rule closes all that it opens: no scanner
looks beyond the end of the construct that it closes, and no scanner fails in such a rule. So the
rule is read as it is read alone, whatever follows, and what follows is read as if it began there.
Only literal text runs across the seam.

## Main definitions

* `ClosesAll` — a rule leaves no hash and no opening bracket in its literal text.
* `Node.joined` — parts one after the other, where two texts that meet become one.

## Main results

* `Node.joined_literal` — a literal character in front of parts is in front of the joined ones.
* `parse_append` — a rule that closes all it opens, and any text behind it.
-/

namespace TextGrammar

/-! ## Rules that close all they open -/

/-- Everything that a rule opens it closes: its literal texts are plain. -/
def ClosesAll (rule : Text) : Prop := ∀ value, .text value ∈ parse rule → Plain value

instance : DecidablePred ClosesAll := fun rule =>
  decidable_of_iff (∀ node ∈ parse rule, node.isText = true → Plain node.raw) (by
    constructor
    · exact fun h value hv => h _ hv rfl
    · intro h node hn ht
      cases node with
      | text value => exact h value hn
      | binding b => cases ht
      | reference r => cases ht)

/-- In front of parts a literal character stands in a text, so that text is plain only when the
character is no delimiter, and the texts behind it are plain when all are. -/
theorem plain_texts_of_literal {c : Char} {nodes : List Node}
    (h : ∀ value, .text value ∈ Node.literal c nodes → Plain value) :
    c ≠ '#' ∧ c ≠ '[' ∧ ∀ value, .text value ∈ nodes → Plain value := by
  obtain ⟨first, hfirst, hrest⟩ : ∃ first, Plain (c :: first) ∧
      ∀ value, .text value ∈ nodes → Plain value := by
    rcases nodes with _ | ⟨value | b | r, nodes⟩
    · exact ⟨[], h _ (List.mem_singleton_self _), fun value hv => nomatch hv⟩
    · have hjoined : Plain (c :: value) := h _ List.mem_cons_self
      refine ⟨value, hjoined, fun other ho => ?_⟩
      rcases List.mem_cons.1 ho with heq | ho
      · cases heq
        exact hjoined.of_cons
      · exact h other (List.mem_cons_of_mem _ ho)
    all_goals
      refine ⟨[], h _ List.mem_cons_self, fun value hv => ?_⟩
      exact h value (List.mem_cons_of_mem _ hv)
  exact ⟨fun hc => hfirst.1 (hc ▸ List.mem_cons_self), fun hc => hfirst.2 (hc ▸ List.mem_cons_self),
    hrest⟩

/-! ## Parts one after the other -/

namespace Node

/-- The parts of two rules, one after the other. Where the first ones end with text and the others
begin with text, the two texts are one. -/
def joined (nodes more : List Node) : List Node :=
  match nodes.getLast?, more with
  | some (text t), text u :: others => nodes.dropLast ++ text (t ++ u) :: others
  | _, _ => nodes ++ more

/-- Joining changes nothing in front of the last part. -/
theorem joined_cons {nodes : List Node} (hne : nodes ≠ []) (node : Node) (more : List Node) :
    joined (node :: nodes) more = node :: joined nodes more := by
  unfold joined
  rw [List.getLast?_cons_of_ne_nil hne, List.dropLast_cons_of_ne_nil hne]
  split <;> rfl

/-- A construct is not joined with what follows it. -/
theorem joined_construct_cons {node : Node} (hnode : node.isText = false) (nodes more : List Node) :
    joined (node :: nodes) more = node :: joined nodes more := by
  by_cases hne : nodes = []
  · subst hne
    cases node with
    | text t => cases hnode
    | binding b => rfl
    | reference r => rfl
  · exact joined_cons hne node more

/-- A literal character in front of parts is in front of what they are joined to. -/
theorem joined_literal (c : Char) (nodes more : List Node) :
    joined (literal c nodes) more = literal c (joined nodes more) := by
  rcases nodes with _ | ⟨value | b | r, nodes⟩
  · rcases more with _ | ⟨value | b | r, more⟩ <;> rfl
  · by_cases hne : nodes = []
    · subst hne
      rcases more with _ | ⟨value | b | r, more⟩ <;> rfl
    · show joined (text (c :: value) :: nodes) more = literal c (joined (text value :: nodes) more)
      rw [joined_cons hne, joined_cons hne]
      rfl
  · show joined (text [c] :: binding b :: nodes) more = _
    rw [joined_cons (List.cons_ne_nil _ _), joined_construct_cons rfl]
    rfl
  · show joined (text [c] :: reference r :: nodes) more = _
    rw [joined_cons (List.cons_ne_nil _ _), joined_construct_cons rfl]
    rfl

end Node

/-! ## Rules one after the other -/

/-- A rule that closes all it opens is read alike whatever is written behind it, and what is written
behind it is read as if it stood alone: the parts of both come one after the other, and only where
text meets text the two are one. -/
theorem parse_append {rule : Text} (h : ClosesAll rule) (more : Text) :
    parse (rule ++ more) = Node.joined (parse rule) (parse more) := by
  unfold ClosesAll at h
  -- By the exits of reading: those that leave a delimiter in a text are excluded.
  fun_induction parse rule with
  | case1 => rfl
  | case2 t hc => exact absurd List.mem_cons_self (h _ (List.mem_singleton_self _)).1
  | case3 t rest hc ih => exact absurd rfl (plain_texts_of_literal h).1
  | case4 t body rest hc hb ih =>
    have hrest := ih fun value hv => h value (List.mem_cons_of_mem _ hv)
    have hclose := closeReference_of_rest hc (rest ++ more)
    rw [eq_of_closeReference hc, List.cons_append, List.append_assoc, List.cons_append,
      parse_reference hclose hb, hrest, Node.joined_construct_cons rfl]
  | case5 t hc hh => exact absurd List.mem_cons_self (h _ (List.mem_singleton_self _)).2
  | case6 t inner rest hc hh ih =>
    have hrest := ih fun value hv => h value (List.mem_cons_of_mem _ hv)
    have hclose := closeBinding_of_rest hc (rest ++ more)
    rw [eq_of_closeBinding hc, List.cons_append, List.append_assoc, List.cons_append,
      parse_binding hclose, hrest, Node.joined_construct_cons rfl]
  | case7 c t hh ho ih =>
    obtain ⟨-, -, hrest⟩ := plain_texts_of_literal h
    rw [List.cons_append, parse_other hh ho, ih hrest, Node.joined_literal]

/-- Behind a greeting, whose binding holds hashes and brackets, a text that opens much and closes
little: the two texts at the seam are one, and nothing in the greeting closes later. -/
theorem parse_greeting_append :
    let greeting := "Hail, #[name:#a# [b]]name.loud# of ".toList
    let more := "] ##old #town [and #so".toList
    ClosesAll greeting ∧ parse (greeting ++ more) = Node.joined (parse greeting) (parse more) ∧
    (parse (greeting ++ more)).map Node.raw = ["Hail, ".toList, "#[name:#a# [b]]name.loud#".toList,
      " of ] #".toList, "#old #".toList, "town [and #so".toList] := by
  intro greeting more
  have hgreeting : ClosesAll greeting := by decide +kernel
  refine ⟨hgreeting, parse_append hgreeting more, ?_⟩
  decide +kernel

end TextGrammar
