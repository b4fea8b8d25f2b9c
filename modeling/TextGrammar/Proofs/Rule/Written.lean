import TextGrammar.Proofs.Rule.Balanced
import TextGrammar.Proofs.Rule.Canonical
import TextGrammar.Proofs.Rule.WellFormed

/-!
# Well-written rules are read as they were written

A rule is well written part by part: literal texts are plain, bindings hold balanced brackets, and a
reference holds plain text and bindings in any order between its hashes. Hashes inside the brackets
do not close the reference, closing brackets in its plain text close nothing, and references may
touch. Reading such a rule gives back the parts it was written from.

## Main definitions

* `Binding.Written`, `Node.Written` — a binding, a part of a rule that is well written.
* `Body` — what stands between the hashes of a reference: text and bindings by turns.
* `Reference.WrittenAs` — a reference that is written with a body.

## Main results

* `Reference.WrittenAs.eq_ofBody` — a reference is read from the body that it is written with.
* `parse_flatMap_raw` — a well-written rule is read as its parts.
-/

namespace TextGrammar

/-- The brackets of a binding are balanced inside, and its name ends at the first colon. -/
def Binding.Written (b : Binding) : Prop := ':' ∉ b.name ∧ Balanced b.inner

instance : DecidablePred Binding.Written := fun b =>
  inferInstanceAs (Decidable (':' ∉ b.name ∧ Balanced b.inner))

/-- What stands between the hashes of a reference. -/
structure Body where
  /-- The text before all bindings. -/
  first : Text
  /-- The bindings, each with the text behind it. -/
  more : List (Binding × Text)

namespace Body

/-- A body as it is written. -/
def text (body : Body) : Text := body.first ++ body.more.flatMap fun p => p.1.raw ++ p.2

/-- What is left of a body without its bindings. -/
def path (body : Body) : Text := body.first ++ body.more.flatMap (·.2)

/-- The bindings of a body, in order. -/
def bindings (body : Body) : List Binding := body.more.map (·.1)

/-- The body is not empty, its bindings are well written and all else is plain. -/
def Written (body : Body) : Prop :=
  body.text ≠ [] ∧ Plain body.first ∧ ∀ p ∈ body.more, p.1.Written ∧ Plain p.2

instance : DecidablePred Written := fun body =>
  inferInstanceAs (Decidable (_ ≠ _ ∧ _ ∧ ∀ p ∈ body.more, _ ∧ _))

end Body

/-- A reference that is written with a body: the body's bindings are its own, and its symbol and
modifiers are what the path is cut into at the full stops. -/
structure Reference.WrittenAs (r : Reference) (body : Body) : Prop where
  /-- The body by itself. -/
  written : body.Written
  /-- The reference as it is written. -/
  raw : r.raw = '#' :: body.text ++ ['#']
  /-- The bindings. -/
  bindings : r.bindings = body.bindings
  /-- The path, put together again. -/
  path : Text.joined ['.'] (r.symbol :: r.modifiers) = body.path
  /-- The path is cut at every full stop. -/
  parts : ∀ part ∈ r.symbol :: r.modifiers, '.' ∉ part

/-- A part of a rule that is well written. -/
def Node.Written : Node → Prop
  | .text value => value ≠ [] ∧ Plain value
  | .binding b => b.Written
  | .reference r => ∃ body : Body, r.WrittenAs body

/-! ## Bodies of references -/

/-- A reference goes on behind plain text as if the text were not there. -/
theorem closeReference_plain_append {p : Text} (hp : Plain p) (t : Text) :
    closeReference 0 (p ++ t) = (closeReference 0 t).map fun q => (p ++ q.1, q.2) := by
  induction p with
  | nil => simp
  | cons c p ih =>
    have hh : c ≠ '#' := fun h => hp.1 (h ▸ List.mem_cons_self)
    have ho : c ≠ '[' := fun h => hp.2 (h ▸ List.mem_cons_self)
    by_cases hc : c = ']'
    · -- The bracket closes nothing: no bracket is open.
      subst hc
      rw [List.cons_append, closeReference_close, ih hp.of_cons, Option.map_map]
      rfl
    · rw [List.cons_append, closeReference_other ho hc fun h => absurd h hh, ih hp.of_cons,
        Option.map_map]
      rfl

/-- A reference goes on behind a binding as if the binding were not there. -/
theorem closeReference_raw_append {b : Binding} (hb : b.Written) (t : Text) :
    closeReference 0 (b.raw ++ t) = (closeReference 0 t).map fun q => (b.raw ++ q.1, q.2) := by
  rw [Binding.raw, List.cons_append, List.cons_append, List.append_assoc, List.singleton_append,
    closeReference_open, hb.2.closeReference_append, closeReference_close]
  simp [Function.comp_def]

/-- Text without an opening bracket is part of the path. -/
theorem pathAndBindings_plain_append {p : Text} (hp : Plain p) (t : Text) :
    pathAndBindings (p ++ t) = (p ++ (pathAndBindings t).1, (pathAndBindings t).2) := by
  induction p with
  | nil => rfl
  | cons c p ih =>
    have ho : c ≠ '[' := fun h => hp.2 (h ▸ List.mem_cons_self)
    rw [List.cons_append, pathAndBindings, if_neg ho, ih hp.of_cons]
    rfl

/-- A binding is taken out of a body. -/
theorem pathAndBindings_raw_append {b : Binding} (hb : b.Written) (t : Text) :
    pathAndBindings (b.raw ++ t) = ((pathAndBindings t).1, b :: (pathAndBindings t).2) := by
  have hclose : closeBinding 0 (b.inner ++ ']' :: t) = some (b.inner, t) := hb.2.closeBinding_zero t
  rw [Binding.raw, List.cons_append, List.cons_append, List.append_assoc, List.singleton_append,
    pathAndBindings, if_pos rfl]
  split
  · rename_i inner rest h
    rw [hclose] at h
    cases h
    rw [Binding.ofInner_inner hb.1]
  · rename_i h
    rw [hclose] at h
    cases h

namespace Body

/-- A reference goes on behind bindings and plain text by turns to the hash that closes it. -/
theorem closeReference_more {more : List (Binding × Text)}
    (h : ∀ p ∈ more, p.1.Written ∧ Plain p.2) (rest : Text) :
    closeReference 0 ((more.flatMap fun p => p.1.raw ++ p.2) ++ '#' :: rest)
      = some (more.flatMap fun p => p.1.raw ++ p.2, rest) := by
  induction more with
  | nil => exact closeReference_hash rest
  | cons p more ih =>
    obtain ⟨⟨hb, hp⟩, hmore⟩ := List.forall_mem_cons.1 h
    rw [List.flatMap_cons, List.append_assoc, List.append_assoc, closeReference_raw_append hb,
      closeReference_plain_append hp, ih hmore]
    simp

/-- Bindings and plain text by turns are taken apart into the texts and the bindings. -/
theorem pathAndBindings_more {more : List (Binding × Text)}
    (h : ∀ p ∈ more, p.1.Written ∧ Plain p.2) :
    pathAndBindings (more.flatMap fun p => p.1.raw ++ p.2)
      = (more.flatMap (·.2), more.map (·.1)) := by
  induction more with
  | nil => exact pathAndBindings_of_not_mem List.not_mem_nil
  | cons p more ih =>
    obtain ⟨⟨hb, hp⟩, hmore⟩ := List.forall_mem_cons.1 h
    rw [List.flatMap_cons, List.append_assoc, pathAndBindings_raw_append hb,
      pathAndBindings_plain_append hp, ih hmore]
    rfl

/-- A body reaches to the hash behind it. -/
theorem Written.closeReference_text {body : Body} (h : body.Written) (rest : Text) :
    closeReference 0 (body.text ++ '#' :: rest) = some (body.text, rest) := by
  obtain ⟨-, hfirst, hmore⟩ := h
  rw [text, List.append_assoc, closeReference_plain_append hfirst, closeReference_more hmore]
  rfl

/-- A body is taken apart into its path and its bindings. -/
theorem Written.pathAndBindings_text {body : Body} (h : body.Written) :
    pathAndBindings body.text = (body.path, body.bindings) := by
  obtain ⟨-, hfirst, hmore⟩ := h
  rw [text, pathAndBindings_plain_append hfirst, pathAndBindings_more hmore]
  rfl

end Body

/-- A reference is read from the body that it is written with. -/
theorem Reference.WrittenAs.eq_ofBody {r : Reference} {body : Body} (h : r.WrittenAs body) :
    r = Reference.ofBody body.text := by
  obtain ⟨raw, symbol, modifiers, bindings⟩ := r
  obtain ⟨hbody, rfl, rfl, hpath, hparts⟩ := h
  rw [Reference.ofBody, hbody.pathAndBindings_text]
  dsimp only
  rw [← hpath, Text.parts_joined hparts]

/-! ## Rules -/

/-- A plain text is read as one part when the part behind it is no text. -/
theorem parse_plain_append {value t : Text} (hne : value ≠ []) (hp : Plain value)
    (ht : ∀ node, (parse t).head? = some node → node.isText = false) :
    parse (value ++ t) = .text value :: parse t := by
  induction value with
  | nil => exact absurd rfl hne
  | cons c value ih =>
    have hh : c ≠ '#' := fun h => hp.1 (h ▸ List.mem_cons_self)
    have ho : c ≠ '[' := fun h => hp.2 (h ▸ List.mem_cons_self)
    rw [List.cons_append, parse_other hh ho]
    by_cases hv : value = []
    · subst hv
      rw [List.nil_append]
      cases hn : parse t with
      | nil => rfl
      | cons node nodes =>
        have hnode := ht node (by rw [hn]; rfl)
        cases node with
        | text value => cases hnode
        | binding b => rfl
        | reference r => rfl
    · rw [ih hv hp.of_cons]
      rfl

/-- A well-written rule is read as the parts that it is written from. -/
theorem parse_flatMap_raw (nodes : List Node) (hw : ∀ node ∈ nodes, node.Written)
    (hs : Node.Separated nodes) : parse (nodes.flatMap Node.raw) = nodes := by
  induction nodes with
  | nil => exact parse_nil
  | cons node nodes ih =>
    obtain ⟨hnode, hnodes⟩ := List.forall_mem_cons.1 hw
    have hrest := ih hnodes hs.tail
    rw [List.flatMap_cons]
    cases node with
    | text value =>
      obtain ⟨hne, hp⟩ := hnode
      rw [Node.raw_text, parse_plain_append hne hp, hrest]
      intro node hn
      rw [hrest] at hn
      obtain ⟨others, rfl⟩ := List.head?_eq_some_iff.1 hn
      have hpair := (List.isChain_cons_cons.1 hs).1
      exact Bool.eq_false_iff.2 fun ht => hpair ⟨rfl, ht⟩
    | binding b =>
      obtain ⟨hname, hb⟩ := hnode
      rw [Node.raw_binding, Binding.raw, List.cons_append, List.cons_append, List.append_assoc,
        List.singleton_append, parse_binding (hb.closeBinding_zero _), hrest,
        Binding.ofInner_inner hname]
    | reference r =>
      obtain ⟨body, hr⟩ := hnode
      rw [Node.raw_reference, hr.raw, List.cons_append, List.cons_append, List.append_assoc,
        List.singleton_append, parse_reference (hr.written.closeReference_text _) hr.written.1, hrest,
        ← hr.eq_ofBody]

/-- A greeting: stray brackets in the text and in the path, hashes and brackets inside a binding,
and two references that touch. -/
theorem parse_greeting :
    let body : Body := ⟨"na".toList, [(⟨"to".toList, some "#a.b# [c]".toList⟩, "me].loud".toList)]⟩
    let nodes := [Node.text "hi] ".toList,
      .reference ⟨"#na[to:#a.b# [c]]me].loud#".toList, "name]".toList, ["loud".toList],
        body.bindings⟩,
      .reference ⟨"#end#".toList, "end".toList, [], []⟩, .binding ⟨"i".toList, none⟩]
    (∀ node ∈ nodes, node.Written) ∧ Node.Separated nodes ∧
    parse "hi] #na[to:#a.b# [c]]me].loud##end#[i]".toList = nodes := by
  intro body nodes
  have hname : Node.Written (.reference ⟨"#na[to:#a.b# [c]]me].loud#".toList, "name]".toList,
      ["loud".toList], body.bindings⟩) := by
    have hbody : body.Written := by decide +kernel
    exact ⟨body, hbody, by decide +kernel, rfl, by decide +kernel, by decide +kernel⟩
  have hend : Node.Written (.reference ⟨"#end#".toList, "end".toList, [], []⟩) := by
    have hbody : Body.Written ⟨"end".toList, []⟩ := by decide +kernel
    exact ⟨_, hbody, by decide +kernel, rfl, by decide +kernel, by decide +kernel⟩
  have hw : ∀ node ∈ nodes, node.Written := by
    intro node hn
    simp only [nodes, List.mem_cons, List.not_mem_nil, or_false] at hn
    rcases hn with rfl | rfl | rfl | rfl
    · exact ⟨by decide +kernel, by decide +kernel⟩
    · exact hname
    · exact hend
    · exact ⟨by decide +kernel, by decide +kernel⟩
  have hs : Node.Separated nodes := by decide +kernel
  have hrule : nodes.flatMap Node.raw = "hi] #na[to:#a.b# [c]]me].loud##end#[i]".toList := by
    decide +kernel
  exact ⟨hw, hs, hrule ▸ parse_flatMap_raw nodes hw hs⟩

end TextGrammar
