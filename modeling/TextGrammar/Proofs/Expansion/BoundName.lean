import TextGrammar.Proofs.Expansion.Verbatim
import TextGrammar.Proofs.Rule.Nested
import TextGrammar.Proofs.Rule.Spelling
import TextGrammar.Proofs.Rule.Written
import TextGrammar.Select.MersenneTwister
import TextGrammar.Select.Selector

/-!
# A bound name keeps its value

A reference that binds the name it asks for introduces the name: what the binding's rule came to is
written where the reference stands, and wherever the name is mentioned afterwards, in any spelling.
The rule of the binding is expanded once. No rule of that name is asked for a candidate then or
later, and that the value is expanded again each time changes nothing, as nothing in it expands.

## Main definitions

* `introduction` — a reference to a name that binds the name first.
* `mentions` — references to names, each with the text in front of it.

## Main results

* `Reference.WrittenAs.introduction` — an introduction is read as one reference with one binding,
  whatever brackets and hashes the binding's rule nests.
* `expandNodes_mentions` — names that all have one value come out as that value.
* `Grammar.flatten_introduction` — an introduction with mentions behind it.
-/

namespace TextGrammar

variable {σ : Type}

/-! ## Introductions and mentions -/

/-- The binding of a name to a rule. -/
def introducing (name rule : Text) : Binding := ⟨name, some rule⟩

/-- The reference to a name that binds the name to a rule first: `#[name:rule]name#`. -/
def introduction (name rule : Text) : Text := '#' :: (introducing name rule).raw ++ name ++ ['#']

/-- References to names, each with the text in front of it. -/
def mentions (uses : List (Text × Text)) : Text :=
  uses.flatMap fun use => use.1 ++ '#' :: use.2 ++ ['#']

/-- A text without brackets is balanced. -/
theorem Balanced.of_not_mem {t : Text} (ho : '[' ∉ t) (hc : ']' ∉ t) : Balanced t := by
  induction t with
  | nil => exact .nil
  | cons c t ih =>
    simp only [List.mem_cons, not_or] at ho hc
    exact .other (Ne.symm ho.1) (Ne.symm hc.1) (ih ho.2 hc.2)

section Reading

variable {name rule : Text}

theorem written_introducing (hname : SymbolName name) (hclose : ']' ∉ name) (hcolon : ':' ∉ name)
    (hrule : Balanced rule) : (introducing name rule).Written := by
  refine ⟨hcolon, (Balanced.of_not_mem hname.2.2.1 hclose).append ?_⟩
  exact .other (by decide) (by decide) hrule

/-- An introduction is a reference whose only binding is the one that introduces the name. -/
theorem Reference.WrittenAs.introduction (hname : SymbolName name)
    (hb : (introducing name rule).Written) :
    (⟨introduction name rule, name, [], [introducing name rule]⟩ : Reference).WrittenAs
      ⟨[], [(introducing name rule, name)]⟩ where
  written := by
    refine ⟨by simp [Body.text, hname.1], plain_nil, ?_⟩
    simp only [List.mem_singleton, forall_eq]
    exact ⟨hb, hname.2.1, hname.2.2.1⟩
  raw := by simp [TextGrammar.introduction, Body.text]
  bindings := rfl
  path := by simp [Body.path, Text.joined]
  parts := by simpa using hname.2.2.2

/-- An introduction is read whole. -/
theorem parse_introduction_append (hname : SymbolName name) (hb : (introducing name rule).Written)
    (t : Text) : parse (introduction name rule ++ t)
      = .reference ⟨introduction name rule, name, [], [introducing name rule]⟩ :: parse t := by
  have hwritten := Reference.WrittenAs.introduction hname hb
  have hclose := hwritten.written.closeReference_text t
  have htext : introduction name rule ++ t
      = '#' :: (Body.text ⟨[], [(introducing name rule, name)]⟩ ++ '#' :: t) := by
    simp [introduction, Body.text]
  rw [htext, parse_reference hclose hwritten.written.1, ← hwritten.eq_ofBody]

/-- A mention of a name is read whole. -/
theorem parse_mention_append (hname : SymbolName name) (t : Text) :
    parse ('#' :: name ++ '#' :: t)
      = .reference ⟨'#' :: name ++ ['#'], name, [], []⟩ :: parse t := by
  obtain ⟨hne, hh, ho, -⟩ := id hname
  rw [List.cons_append, parse_reference (closeReference_of_not_mem hh ho t) hne, hname.ofBody_eq]

end Reading

/-! ## Expanding them -/

section Expanding

variable {s : Setting σ} {inner : Text → Expansion σ Text} {run mid : Run σ} {name value : Text}

/-- A reference without modifiers comes out as the value of its symbol, when that has one once the
bindings are run and nothing in the value expands. -/
theorem expandReference_of_bound {r : Reference} (hm : r.modifiers = [])
    (hb : runBindings s inner r.bindings run = .ok () mid)
    (hget : mid.bound.get? r.symbol = some value) (hinner : inner value = pure value) :
    expandReference s inner r run = .ok value mid := by
  have hvalue : inner value mid = .ok value mid := by
    rw [hinner]
    rfl
  have hpassed : applyModifiers s r.raw r.modifiers value mid = .ok value mid := by
    rw [hm]
    rfl
  rw [expandReference, Expansion.run_bind_of_ok hb,
    Expansion.run_bind_of_ok (resolve_of_bound hget), Expansion.run_bind_of_ok hvalue,
    Expansion.run_bind_of_ok hpassed]
  exact hvalue

/-- A binding writes what its rule comes to. -/
theorem runBindings_introducing {rule : Text} (hr : inner rule run = .ok value mid) :
    runBindings s inner [introducing name rule] run
      = .ok () (mid.bind s.keepsBindings name value) := by
  have hb : runBinding s inner (introducing name rule) run
      = .ok () (mid.bind s.keepsBindings name value) := Expansion.run_bind_of_ok hr _
  rw [runBindings, Expansion.run_bind_of_ok hb]
  rfl

/-- An introduction writes what the binding's rule comes to, and comes out as that. -/
theorem expandReference_introduction {rule : Text} (hr : inner rule run = .ok value mid)
    (hinner : inner value = pure value) :
    expandReference s inner ⟨introduction name rule, name, [], [introducing name rule]⟩ run
      = .ok value (mid.bind s.keepsBindings name value) := by
  have hget : (mid.bind s.keepsBindings name value).bound.get? name = some value :=
    NameMap.get?_insert_of_lower_eq mid.bound value rfl
  exact expandReference_of_bound rfl (runBindings_introducing hr) hget hinner

/-- Mentions of names that all have one value come out as that value, and leave the run as it is. -/
theorem expandNodes_mentions (hinner : inner value = pure value) {uses : List (Text × Text)}
    (huses : ∀ use ∈ uses, Plain use.1 ∧ SymbolName use.2 ∧ run.bound.get? use.2 = some value) :
    expandNodes s inner (parse (mentions uses)) run
      = .ok (uses.flatMap fun use => use.1 ++ value) run := by
  induction uses with
  | nil =>
    rw [mentions, List.flatMap_nil, parse_nil]
    rfl
  | cons use uses ih =>
    obtain ⟨⟨htext, hname, hget⟩, hrest⟩ := List.forall_mem_cons.1 huses
    have hmention : expandNodes s inner (parse ('#' :: use.2 ++ '#' :: mentions uses)) run
        = .ok (value ++ uses.flatMap fun use => use.1 ++ value) run := by
      rw [parse_mention_append hname, expandNodes_cons_eq_ok_iff]
      exact ⟨value, run, _, expandReference_of_bound rfl rfl hget hinner, ih hrest, rfl⟩
    have happend := expandNodes_parse_append htext hmention
    simpa [mentions] using happend

end Expanding

/-! ## A bound name keeps its value -/

namespace Grammar

variable {pick : Pick σ} {selector : σ} {run : Run σ}

/-- A rule is introduced under a name, and the name is mentioned any number of times, in any
spelling. When the rule of the binding, which may bind names itself and this name too, comes to a
value in which nothing expands, then that value is written in all these places. The selector stays
where the rule of the binding has left it, whatever the grammar says of the name, and nothing
happens after that but that the name is bound to the value. -/
theorem flatten_introduction (g : Grammar) (hdepth : 0 ≤ g.maxDepth) {name rule value : Text}
    {uses : List (Text × Text)} (hname : SymbolName name) (hclose : ']' ∉ name)
    (hcolon : ':' ∉ name) (hrule : Balanced rule)
    (huses : ∀ use ∈ uses, Plain use.1 ∧ Text.lower use.2 = Text.lower name)
    (hvalue : TextGrammar.flatten (g.setting pick) g.maxDepth.toNat rule (g.start selector)
      = .ok value run) (hplain : Plain value) :
    let o := g.flatten pick selector (introduction name rule ++ mentions uses)
    o.result = .ok (value ++ uses.flatMap fun use => use.1 ++ value) ∧
      o.selector = run.selector ∧ o.events = run.events ++ [.bound name value] ∧
      o.grammar.rules
        = if g.keepsBindings then run.rules.insert name [value] else run.rules := by
  have hinner : TextGrammar.flatten (g.setting pick) g.maxDepth.toNat value = pure value :=
    flatten_of_not_hasSyntax _ _ (hasSyntax_eq_false_iff.2 hplain)
  have hspelt : ∀ use ∈ uses, Plain use.1 ∧ SymbolName use.2 ∧
      (run.bind g.keepsBindings name value).bound.get? use.2 = some value := by
    intro use hu
    obtain ⟨htext, hlower⟩ := huses use hu
    exact ⟨htext, (symbolName_congr hlower).2 hname, NameMap.get?_insert_of_lower_eq _ value hlower⟩
  have hlevels : (g.setting pick).levels = g.maxDepth.toNat + 1 := by
    show (g.maxDepth + 1).toNat = _
    omega
  have htop : flattenTop (g.setting pick) (introduction name rule ++ mentions uses)
      (g.start selector) = .ok (value ++ uses.flatMap fun use => use.1 ++ value)
        (run.bind g.keepsBindings name value) := by
    rw [flattenTop, hlevels, flatten_succ_eq_expandNodes _ _ _ rfl,
      parse_introduction_append hname (written_introducing hname hclose hcolon hrule),
      expandNodes_cons_eq_ok_iff]
    exact ⟨value, _, _, expandReference_introduction hvalue hinner,
      expandNodes_mentions hinner hspelt, rfl⟩
  rw [flatten_of_ok htop]
  exact ⟨rfl, rfl, by simp [finished, Run.events, Run.bind], rfl⟩

/-- Heroes of two names. -/
def juniors : Grammar where
  rules := .ofList [("hero".toList, ["Max".toList, "Moritz".toList]),
    ("name".toList, ["Anna".toList, "Bob".toList])]
  keepsBindings := true

/-- The rule of the binding binds the name that it is introduced under, and rules of both names have
candidates left. -/
theorem juniors_keep_their_name :
    let pick := (Selector.pick : Pick (Selector MersenneTwister))
    let rule := "#[hero:#name#]hero# Jr".toList
    let uses := [(" and ".toList, "Hero".toList), (", ".toList, "HERO".toList)]
    (SymbolName "hero".toList ∧ ']' ∉ "hero".toList ∧ ':' ∉ "hero".toList ∧ Balanced rule ∧
      (∀ use ∈ uses, Plain use.1 ∧ Text.lower use.2 = Text.lower "hero".toList) ∧
      0 ≤ juniors.maxDepth ∧ Plain "Anna Jr".toList) ∧
    ∃ run, TextGrammar.flatten (juniors.setting pick) juniors.maxDepth.toNat rule
        (juniors.start (.sequential ∅)) = .ok "Anna Jr".toList run ∧
      let o := juniors.flatten pick (.sequential ∅)
        (introduction "hero".toList rule ++ mentions uses)
      o.result = .ok "Anna Jr and Anna Jr, Anna Jr".toList ∧ o.selector = run.selector ∧
        o.events = run.events ++ [.bound "hero".toList "Anna Jr".toList] ∧
        o.grammar.rules = run.rules.insert "hero".toList ["Anna Jr".toList] := by
  intro pick rule uses
  have hname : SymbolName "hero".toList := by decide +kernel
  have hclose : ']' ∉ "hero".toList := by decide +kernel
  have hcolon : ':' ∉ "hero".toList := by decide +kernel
  have hrule : Balanced rule := by decide +kernel
  have huses : ∀ use ∈ uses, Plain use.1 ∧ Text.lower use.2 = Text.lower "hero".toList := by
    decide +kernel
  have hdepth : 0 ≤ juniors.maxDepth := by decide
  have hplain : Plain "Anna Jr".toList := by decide +kernel
  have hvalue : (TextGrammar.flatten (juniors.setting pick) juniors.maxDepth.toNat rule).run'
      (juniors.start (.sequential ∅)) = some "Anna Jr".toList := by decide +kernel
  obtain ⟨run, hrun⟩ := Expansion.exists_ok_of_run' hvalue
  obtain ⟨hresult, hrest⟩ :=
    flatten_introduction juniors hdepth hname hclose hcolon hrule huses hrun hplain
  exact ⟨⟨hname, hclose, hcolon, hrule, huses, hdepth, hplain⟩, run, hrun, hresult, hrest⟩

end Grammar

end TextGrammar
