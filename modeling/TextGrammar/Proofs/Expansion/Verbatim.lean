import TextGrammar.Proofs.Expansion.Strictness
import TextGrammar.Proofs.Rule.Canonical
import TextGrammar.Proofs.Rule.WellFormed

/-!
# Text outside references comes out as it is written

Expanding a rule puts texts in the places of its references and touches nothing else: literal text
stays, and so does a binding outside a reference, which is only run. This is told here without the
order in which the parts are gone through: what comes out is the rule with its references filled in,
and the texts that fill them in are what the references expand to, each in the run that the one
before it left.

## Main definitions

* `filled` — the parts of a rule with texts in the places of their references.
* `Expands` — what the references of some parts expand to, one after the other.

## Main results

* `filled_raws_parse` — a rule is its parts filled in with the references as they are written.
* `expandNodes_eq_ok_iff` — what parts expand to, filled in.
* `expandNodes_parse_append` — plain text in front of a rule comes out in front of what it expands
  to.
* `flatten_verbatim` — what rules expand to, filled in, and rules without references.
-/

namespace TextGrammar

variable {σ : Type}

/-! ## Filling in -/

/-- The parts of a rule with texts in the places of their references, in order. All else is as it is
written, and so is a reference that no text is left for. -/
def filled : List Node → List Text → Text
  | [], _ => []
  | .text value :: nodes, texts => value ++ filled nodes texts
  | .binding b :: nodes, texts => b.raw ++ filled nodes texts
  | .reference r :: nodes, [] => r.raw ++ filled nodes []
  | .reference _ :: nodes, t :: texts => t ++ filled nodes texts

/-- The references among the parts of a rule, in order. -/
def topReferences (nodes : List Node) : List Reference := nodes.filterMap Node.reference?

/-- References filled in with themselves leave the parts as they are written. -/
theorem filled_raws (nodes : List Node) :
    filled nodes ((topReferences nodes).map (·.raw)) = nodes.flatMap Node.raw := by
  induction nodes with
  | nil => rfl
  | cons node nodes ih =>
    cases node with
    | text value => exact congrArg (value ++ ·) ih
    | binding b => exact congrArg (b.raw ++ ·) ih
    | reference r => exact congrArg (r.raw ++ ·) ih

theorem filled_raws_parse (rule : Text) :
    filled (parse rule) ((topReferences (parse rule)).map (·.raw)) = rule :=
  (filled_raws (parse rule)).trans (flatMap_raw_parse rule)

/-- Nothing is filled in where there is no reference. -/
theorem filled_of_no_reference {nodes : List Node} (h : ∀ r, .reference r ∉ nodes)
    (texts : List Text) : filled nodes texts = nodes.flatMap Node.raw := by
  induction nodes with
  | nil => rfl
  | cons node nodes ih =>
    have hrest := ih fun r hr => h r (List.mem_cons_of_mem node hr)
    cases node with
    | text value => exact congrArg (value ++ ·) hrest
    | binding b => exact congrArg (b.raw ++ ·) hrest
    | reference r => exact absurd List.mem_cons_self (h r)

theorem filled_literal (c : Char) (nodes : List Node) (texts : List Text) :
    filled (Node.literal c nodes) texts = c :: filled nodes texts := by
  rcases nodes with _ | ⟨value | b | r, nodes⟩ <;> rfl

/-! ## What references expand to -/

/-- From the run `run` the references of some parts expand to `texts`, one after the other, and
leave the run `last`; the bindings outside them are run in between. `inner` expands a rule one level
deeper. -/
inductive Expands (s : Setting σ) (inner : Text → Expansion σ Text) :
    List Node → Run σ → List Text → Run σ → Prop where
  | nil (run : Run σ) : Expands s inner [] run [] run
  | text {value : Text} {nodes : List Node} {run last : Run σ} {texts : List Text}
    (hrest : Expands s inner nodes run texts last) :
    Expands s inner (.text value :: nodes) run texts last
  | binding {b : Binding} {nodes : List Node} {run mid last : Run σ} {texts : List Text}
    (hb : runBinding s inner b run = .ok () mid) (hrest : Expands s inner nodes mid texts last) :
    Expands s inner (.binding b :: nodes) run texts last
  | reference {r : Reference} {t : Text} {nodes : List Node} {run mid last : Run σ}
    {texts : List Text} (hr : expandReference s inner r run = .ok t mid)
    (hrest : Expands s inner nodes mid texts last) :
    Expands s inner (.reference r :: nodes) run (t :: texts) last

section Parts

variable {s : Setting σ} {inner : Text → Expansion σ Text} {nodes : List Node} {run last : Run σ}
  {text : Text} {texts : List Text}

/-- There is a text for every reference. -/
theorem Expands.length_eq (h : Expands s inner nodes run texts last) :
    texts.length = (topReferences nodes).length := by
  induction h with
  | nil => rfl
  | text _ ih => exact ih
  | binding _ _ ih => exact ih
  | reference _ _ ih => exact congrArg (· + 1) ih

theorem expandNodes_cons_eq_ok_iff {node : Node} :
    expandNodes s inner (node :: nodes) run = .ok text last ↔ ∃ first mid rest,
      expandNode s inner node run = .ok first mid ∧ expandNodes s inner nodes mid = .ok rest last ∧
        text = first ++ rest := by
  simp only [expandNodes, Expansion.run_bind_eq_ok_iff, Expansion.run_pure]
  constructor
  · rintro ⟨first, mid, hfirst, rest, last', hrest, heq⟩
    cases heq
    exact ⟨first, mid, rest, hfirst, hrest, rfl⟩
  · rintro ⟨first, mid, rest, hfirst, hrest, rfl⟩
    exact ⟨first, mid, hfirst, rest, last, hrest, rfl⟩

/-- A binding outside a reference comes out as it is written once it is run. -/
theorem expandNode_binding_eq_ok_iff {b : Binding} :
    expandNode s inner (.binding b) run = .ok text last ↔
      runBinding s inner b run = .ok () last ∧ text = b.raw := by
  simp only [expandNode, Expansion.run_bind_eq_ok_iff, Expansion.run_pure]
  constructor
  · rintro ⟨_, mid, hb, heq⟩
    cases heq
    exact ⟨hb, rfl⟩
  · rintro ⟨hb, rfl⟩
    exact ⟨(), last, hb, rfl⟩

/-- Parts of a rule expand to themselves, filled in with what their references expand to. -/
theorem expandNodes_eq_ok_iff : expandNodes s inner nodes run = .ok text last ↔
    ∃ texts, Expands s inner nodes run texts last ∧ text = filled nodes texts := by
  induction nodes generalizing run text with
  | nil =>
    constructor
    · intro h
      cases h
      exact ⟨[], .nil _, rfl⟩
    · rintro ⟨texts, h, rfl⟩
      cases h
      rfl
  | cons node nodes ih =>
    rw [expandNodes_cons_eq_ok_iff]
    constructor
    · rintro ⟨first, mid, rest, hfirst, hrest, rfl⟩
      obtain ⟨texts, htexts, rfl⟩ := ih.1 hrest
      cases node with
      | text value =>
        cases hfirst
        exact ⟨texts, .text htexts, rfl⟩
      | binding b =>
        obtain ⟨hb, rfl⟩ := expandNode_binding_eq_ok_iff.1 hfirst
        exact ⟨texts, .binding hb htexts, rfl⟩
      | reference r => exact ⟨first :: texts, .reference hfirst htexts, rfl⟩
    · rintro ⟨texts, h, rfl⟩
      cases h with
      | @text value _ _ _ _ hrest =>
        exact ⟨value, run, _, rfl, ih.2 ⟨texts, hrest, rfl⟩, rfl⟩
      | @binding b _ _ mid _ _ hb hrest =>
        have hfirst := expandNode_binding_eq_ok_iff.2 ⟨hb, rfl⟩
        exact ⟨b.raw, mid, _, hfirst, ih.2 ⟨texts, hrest, rfl⟩, rfl⟩
      | @reference r t _ _ mid _ rest hr hrest =>
        exact ⟨t, mid, _, hr, ih.2 ⟨rest, hrest, rfl⟩, rfl⟩

/-! ## Literal text in front -/

/-- A literal character brings in no reference and runs nothing. -/
theorem Expands.literal (h : Expands s inner nodes run texts last) (c : Char) :
    Expands s inner (Node.literal c nodes) run texts last := by
  rcases nodes with _ | ⟨value | b | r, nodes⟩
  · exact .text h
  · cases h with
    | text hrest => exact .text hrest
  · exact .text h
  · exact .text h

/-- Plain text in front of a rule comes out in front of what the rule expands to. -/
theorem expandNodes_parse_append {u t : Text} (hu : Plain u)
    (h : expandNodes s inner (parse t) run = .ok text last) :
    expandNodes s inner (parse (u ++ t)) run = .ok (u ++ text) last := by
  induction u with
  | nil => exact h
  | cons c u ih =>
    have hh : c ≠ '#' := fun hc => hu.1 (hc ▸ List.mem_cons_self)
    have ho : c ≠ '[' := fun hc => hu.2 (hc ▸ List.mem_cons_self)
    obtain ⟨texts, htexts, heq⟩ := expandNodes_eq_ok_iff.1 (ih hu.of_cons)
    rw [List.cons_append, parse_other hh ho, expandNodes_eq_ok_iff]
    refine ⟨texts, htexts.literal c, ?_⟩
    rw [filled_literal, ← heq]
    rfl

end Parts

/-! ## Rules -/

/-- As long as the limit is not passed, a rule with a level left is gone through part by part, be
there something to expand in it or not. -/
theorem flatten_succ_eq_expandNodes (s : Setting σ) (levels : Nat) (rule : Text) {run : Run σ}
    (hr : run.truncated = false) :
    flatten s (levels + 1) rule run = expandNodes s (flatten s levels) (parse rule) run := by
  cases h : hasSyntax rule with
  | true => exact flatten_succ_of_not_truncated s levels h hr
  | false =>
    rw [flatten_of_not_hasSyntax s _ h, parse_of_plain (hasSyntax_eq_false_iff.1 h)]
    by_cases hne : rule = []
    · subst hne
      rfl
    · rw [if_neg hne]
      symm
      exact expandNodes_eq_ok_iff.2 ⟨[], .text (.nil run), (List.append_nil rule).symm⟩

/-- A lenient expansion of a rule without references gives the rule back. -/
theorem exists_flatten_eq_self {s : Setting σ} (hs : s.strict = false) {rule : Text}
    (hrule : ∀ r, .reference r ∉ parse rule) (levels : Nat) (run : Run σ) :
    ∃ last, flatten s levels rule run = .ok rule last := by
  cases ht : run.truncated with
  | true => exact ⟨run, flatten_of_truncated levels hs ht rule⟩
  | false =>
    cases levels with
    | zero =>
      cases h : hasSyntax rule with
      | false => exact ⟨run, by rw [flatten_of_not_hasSyntax s 0 h]; rfl⟩
      | true => exact ⟨_, by rw [flatten_zero s h, tooDeep_of_not_truncated hs rule ht]⟩
    | succ levels =>
      obtain ⟨text, last, hlast⟩ := exists_ok_of_lenient hs (levels + 1) rule run
      have hparts := hlast
      rw [flatten_succ_eq_expandNodes s levels rule ht, expandNodes_eq_ok_iff] at hparts
      obtain ⟨texts, -, heq⟩ := hparts
      rw [filled_of_no_reference hrule, flatMap_raw_parse] at heq
      exact ⟨last, heq ▸ hlast⟩

/-- Text outside references comes out as it is written. A rule is its parts filled in with the
references as they are written, and where the limit is not passed and a level is left, what it
expands to are the same parts filled in with the texts that the references expand to, in order.
A lenient expansion of a rule without references gives the rule back, at every depth and after
whatever happened before, the passing of the limit among it. -/
theorem flatten_verbatim (s : Setting σ) (rule : Text) :
    filled (parse rule) ((topReferences (parse rule)).map (·.raw)) = rule ∧
    (∀ levels run, run.truncated = false → ∀ text last,
      flatten s (levels + 1) rule run = .ok text last ↔
        ∃ texts, Expands s (flatten s levels) (parse rule) run texts last ∧
          texts.length = (topReferences (parse rule)).length ∧ text = filled (parse rule) texts) ∧
    (s.strict = false → (∀ r, .reference r ∉ parse rule) → ∀ levels run,
      ∃ last, flatten s levels rule run = .ok rule last) := by
  refine ⟨filled_raws_parse rule, fun levels run hr text last => ?_,
    fun hs hrule levels run => exists_flatten_eq_self hs hrule levels run⟩
  rw [flatten_succ_eq_expandNodes s levels rule hr, expandNodes_eq_ok_iff]
  constructor
  · rintro ⟨texts, htexts, rfl⟩
    exact ⟨texts, htexts, htexts.length_eq, rfl⟩
  · rintro ⟨texts, htexts, -, rfl⟩
    exact ⟨texts, htexts, rfl⟩

end TextGrammar
