import TextGrammar.Proofs.Expansion.Congruence
import TextGrammar.Proofs.Expansion.FullExpansion

/-!
# Expansion sees names, not spellings or order

Rule tables and registries are lists of entries, each under one spelling of its name, in the order
in which the names were first written. Of all this an expansion sees only what it looks up. So two
grammars that have the same names with the same values, in whatever order and spelling, cannot be
told apart by expanding rules: neither by one expansion, nor by what an expansion leaves in the
table for the ones after it.

## Main definitions

* `NameMap.AgreeBy f m m'` — the maps have the same names, and a name's two values are one to `f`.
* `Run.Alike`, `Setting.Alike`, `Grammar.Alike`, `Outcome.Alike` — the same but for the order and
  the spelling of names.
* `Follow` — from runs that are alike two steps end alike; everything an expansion does keeps it.

## Main results

* `NameMap.agreeBy_iff` — maps agree when they are alike under every name that is looked up.
* `NameMap.AgreeBy.insert` — what is written under one name keeps maps in agreement.
* `Follow.flatten` — one rule, at any depth.
* `Grammar.flattenEach_alike` — any number of rules, one after the other.
-/

namespace TextGrammar

universe u v

/-! ## Maps that have the same names -/

namespace NameMap

variable {V : Type u} {W : Type v} {f : V → W} {m m' : NameMap V}

/-- The entries in lower case, with what `f` makes of their values. -/
def lowered (f : V → W) (m : NameMap V) : List (Text × W) :=
  m.entries.map fun e => (Text.lower e.1, f e.2)

/-- Two maps have the same names, in whatever order and spelling, and `f` makes the same of the two
values of a name. -/
structure AgreeBy (f : V → W) (m m' : NameMap V) : Prop where
  left : m.WellFormed
  right : m'.WellFormed
  /-- The entries are the same but for their order and the case of their names. -/
  entries : (m.lowered f).Perm (m'.lowered f)

/-- Where an entry is, its value is found under its name. -/
theorem WellFormed.map_get?_of_mem_lowered (h : m.WellFormed) {name : Text} {value : W}
    (hmem : (Text.lower name, value) ∈ m.lowered f) : (m.get? name).map f = some value := by
  obtain ⟨e, he, heq⟩ := List.mem_map.1 hmem
  obtain ⟨hname, rfl⟩ := Prod.mk.inj heq
  rw [get?_congr m hname.symm, h.get?_of_mem he, Option.map_some]

/-- Where a value is found, there is an entry. -/
theorem mem_lowered_of_map_get? {name : Text} {value : W}
    (h : (m.get? name).map f = some value) : (Text.lower name, value) ∈ m.lowered f := by
  obtain ⟨w, hw, rfl⟩ := Option.map_eq_some_iff.1 h
  obtain ⟨e, he, hname, rfl⟩ := exists_mem_of_get? hw
  exact List.mem_map.2 ⟨e, he, by rw [hname]⟩

/-- With one entry for each name no lowered entry stands twice. -/
theorem WellFormed.nodup_lowered (h : m.WellFormed) (f : V → W) : (m.lowered f).Nodup :=
  List.pairwise_map.2 (h.imp fun hne heq => hne (Prod.mk.inj heq).1)

/-- The entries of a map are among those of one that is alike under every name. -/
theorem lowered_subset (hm : m.WellFormed)
    (h : ∀ name, (m.get? name).map f = (m'.get? name).map f) : m.lowered f ⊆ m'.lowered f := by
  intro entry hentry
  obtain ⟨e, he, rfl⟩ := List.mem_map.1 hentry
  refine mem_lowered_of_map_get? ?_
  rw [← h e.1, hm.get?_of_mem he, Option.map_some]

theorem AgreeBy.map_get? (h : AgreeBy f m m') (name : Text) :
    (m.get? name).map f = (m'.get? name).map f := by
  refine Option.ext fun value => ⟨fun hv => ?_, fun hv => ?_⟩
  · exact h.right.map_get?_of_mem_lowered (h.entries.subset (mem_lowered_of_map_get? hv))
  · exact h.left.map_get?_of_mem_lowered (h.entries.symm.subset (mem_lowered_of_map_get? hv))

/-- Maps with one entry for each name agree when they are alike under every name that is looked
up. -/
theorem agreeBy_iff (hm : m.WellFormed) (hm' : m'.WellFormed) :
    AgreeBy f m m' ↔ ∀ name, (m.get? name).map f = (m'.get? name).map f := by
  refine ⟨AgreeBy.map_get?, fun h => ⟨hm, hm', ?_⟩⟩
  rw [List.perm_ext_iff_of_nodup (hm.nodup_lowered f) (hm'.nodup_lowered f)]
  exact fun entry => ⟨fun he => lowered_subset hm h he,
    fun he => lowered_subset hm' (fun name => (h name).symm) he⟩

/-- What is written under one name keeps maps in agreement, wherever and under whichever spelling
their entries of the name stand. -/
theorem AgreeBy.insert (h : AgreeBy f m m') (name : Text) (value : V) :
    AgreeBy f (m.insert name value) (m'.insert name value) := by
  refine (agreeBy_iff (h.left.insert name value) (h.right.insert name value)).2 fun other => ?_
  by_cases hname : Text.lower other = Text.lower name
  · rw [get?_insert_of_lower_eq m value hname, get?_insert_of_lower_eq m' value hname]
  · rw [get?_insert_of_lower_ne m value hname, get?_insert_of_lower_ne m' value hname]
    exact h.map_get? other

end NameMap

variable {σ α β : Type}

/-- Rule tables agree when they give the same names the same candidates. -/
abbrev RuleTable.Agree (rules rules' : RuleTable) : Prop := NameMap.AgreeBy id rules rules'

theorem RuleTable.Agree.get? {rules rules' : RuleTable} (h : rules.Agree rules') (symbol : Text) :
    rules.get? symbol = rules'.get? symbol := by
  simpa using h.map_get? symbol

/-! ## Runs and steps that are alike -/

/-- Two runs are the same but for the order and the spelling of the names in their rules. -/
structure Run.Alike (run run' : Run σ) : Prop where
  rules : run.rules.Agree run'.rules
  bound : run.bound = run'.bound
  selector : run.selector = run'.selector
  truncated : run.truncated = run'.truncated
  trace : run.trace = run'.trace

namespace Run.Alike

variable {run run' : Run σ}

theorem record (h : run.Alike run') (e : Event) : (run.record e).Alike (run'.record e) :=
  { h with trace := congrArg (e :: ·) h.trace }

theorem choose (h : run.Alike run') (pick : Pick σ) (symbol : Text) (candidates : List Text) :
    (run.choose pick symbol candidates).1 = (run'.choose pick symbol candidates).1 ∧
      (run.choose pick symbol candidates).2.Alike (run'.choose pick symbol candidates).2 := by
  have hanswer : pick run.selector symbol candidates = pick run'.selector symbol candidates := by
    rw [h.selector]
  rw [Run.choose, Run.choose, hanswer]
  exact ⟨rfl, { h with selector := rfl, trace := congrArg (_ :: ·) h.trace }⟩

theorem bind (h : run.Alike run') (keeps : Bool) (name value : Text) :
    (run.bind keeps name value).Alike (run'.bind keeps name value) where
  rules := by
    cases keeps with
    | false => exact h.rules
    | true => exact h.rules.insert name [value]
  bound := congrArg (·.insert name value) h.bound
  selector := h.selector
  truncated := h.truncated
  trace := congrArg (_ :: ·) h.trace

end Run.Alike

/-- Two settings have the same options, the same selector and the same modifiers, but for the order
and the spelling of their names. -/
structure Setting.Alike (s t : Setting σ) : Prop where
  modifiers : NameMap.AgreeBy Modifier.apply s.modifiers t.modifiers
  maxDepth : s.maxDepth = t.maxDepth
  strict : s.strict = t.strict
  keepsBindings : s.keepsBindings = t.keepsBindings
  pick : s.pick = t.pick

/-- Two steps ended with the same answer or the same failure, and with runs that are alike. -/
inductive EndAlike : EStateM.Result DepthExceeded (Run σ) α →
    EStateM.Result DepthExceeded (Run σ) α → Prop where
  | ok (a : α) {run run' : Run σ} (h : run.Alike run') : EndAlike (.ok a run) (.ok a run')
  | error (e : DepthExceeded) {run run' : Run σ} (h : run.Alike run') :
    EndAlike (.error e run) (.error e run')

/-- From runs that are alike two steps end alike. -/
def Follow (x y : Expansion σ α) : Prop :=
  ∀ ⦃run run' : Run σ⦄, run.Alike run' → EndAlike (x run) (y run')

namespace Follow

variable {s t : Setting σ}

theorem answer (a : α) : Follow (pure a : Expansion σ α) (pure a) := fun _ _ h => .ok a h

theorem change {c : Run σ → Run σ} (hc : ∀ ⦃run run'⦄, run.Alike run' → (c run).Alike (c run')) :
    Follow (modify c : Expansion σ PUnit) (modify c) :=
  fun _ _ h => .ok () (hc h)

theorem sequence {x y : Expansion σ α} {k l : α → Expansion σ β} (h : Follow x y)
    (hk : ∀ a, Follow (k a) (l a)) : Follow (x >>= k) (y >>= l) := by
  intro run run' hrun
  rw [Expansion.run_bind, Expansion.run_bind]
  have hmid := h hrun
  generalize x run = first, y run' = first' at hmid
  cases hmid with
  | ok a hmid => exact hk a hmid
  | error e hstop => exact .error e hstop

/-- A symbol stands for the same text, and where the selector is asked it is asked the same. -/
theorem lookUp (hpick : s.pick = t.pick) (symbol : Text) :
    Follow (resolve s symbol) (resolve t symbol) := by
  intro run run' h
  have hbound : run.bound.get? symbol = run'.bound.get? symbol := by rw [h.bound]
  have hrules := h.rules.get? symbol
  cases hb : run.bound.get? symbol with
  | some value =>
    rw [resolve_of_bound hb, resolve_of_bound (hbound ▸ hb)]
    exact .ok value h
  | none =>
    cases hr : run.rules.get? symbol with
    | none =>
      rw [resolve_of_unknown hb hr, resolve_of_unknown (hbound ▸ hb) (hrules ▸ hr)]
      exact .ok symbol h
    | some candidates =>
      obtain ⟨hchoice, hlast⟩ := h.choose t.pick symbol candidates
      rw [resolve_of_candidates hb hr, resolve_of_candidates (hbound ▸ hb) (hrules ▸ hr), hpick,
        hchoice]
      exact .ok _ hlast

/-- A rule that lies too deep is left alone, or is an error, in both expansions. -/
theorem tooDeep (hstrict : s.strict = t.strict) (hdepth : s.maxDepth = t.maxDepth) (rule : Text) :
    Follow (tooDeep s rule) (tooDeep t rule) := by
  intro run run' h
  cases hs : s.strict with
  | true =>
    rw [tooDeep_of_strict hs, tooDeep_of_strict (hstrict ▸ hs), hdepth]
    exact .error _ h
  | false =>
    cases hr : run.truncated with
    | true =>
      rw [tooDeep_of_truncated hs rule hr,
        tooDeep_of_truncated (hstrict ▸ hs) rule (h.truncated ▸ hr)]
      exact .ok rule h
    | false =>
      rw [tooDeep_of_not_truncated hs rule hr,
        tooDeep_of_not_truncated (hstrict ▸ hs) rule (h.truncated ▸ hr), hdepth]
      exact .ok rule { h.record _ with truncated := rfl }

theorem ite_truncated {x y x' y' : Expansion σ α} (h : Follow x y) (h' : Follow x' y') :
    Follow (do if (← get).truncated then x else x') (do if (← get).truncated then y else y') := by
  intro run run' hrun
  rw [Expansion.run_ite_truncated, Expansion.run_ite_truncated, ← hrun.truncated]
  split
  · exact h hrun
  · exact h' hrun

/-- Everything an expansion does is followed when the settings are alike. -/
theorem congruence (h : s.Alike t) : Congruence s t Follow where
  answer := answer
  sequence := sequence
  lookUp := lookUp h.pick
  write name value := by
    rw [h.keepsBindings]
    exact change fun _ _ hrun => hrun.bind t.keepsBindings name value
  note name reference := change fun _ _ hrun => hrun.record (.unknownModifier name reference)
  modifiers := h.modifiers.map_get?

/-- A rule expands alike at every depth. -/
theorem flatten (h : s.Alike t) (levels : Nat) (rule : Text) :
    Follow (flatten s levels rule) (flatten t levels rule) :=
  (congruence h).flatten (tooDeep h.strict h.maxDepth) ite_truncated levels rule

theorem flattenTop (h : s.Alike t) (rule : Text) :
    Follow (flattenTop s rule) (flattenTop t rule) := by
  have hlevels : s.levels = t.levels := congrArg (fun d : Int => (d + 1).toNat) h.maxDepth
  rw [TextGrammar.flattenTop, TextGrammar.flattenTop, hlevels]
  exact flatten h t.levels rule

end Follow

/-! ## Grammars that are alike -/

/-- Two grammars have the same options, the same rules and the same modifiers, but for the order and
the spelling of the names. -/
structure Grammar.Alike (g h : Grammar) : Prop where
  rules : g.rules.Agree h.rules
  modifiers : NameMap.AgreeBy Modifier.apply g.modifiers h.modifiers
  keepsBindings : g.keepsBindings = h.keepsBindings
  maxDepth : g.maxDepth = h.maxDepth
  strict : g.strict = h.strict

/-- Two expansions came to the same text or failure, asked the selector for the same candidates of
the same symbols and got the same answers, noted the same, and left grammars that are alike. -/
structure Outcome.Alike (o o' : Outcome σ) : Prop where
  result : o.result = o'.result
  events : o.events = o'.events
  selector : o.selector = o'.selector
  grammar : o.grammar.Alike o'.grammar

namespace Grammar

theorem Alike.withRules {g h : Grammar} (halike : g.Alike h) {rules rules' : RuleTable}
    (hrules : rules.Agree rules') :
    { g with rules := rules }.Alike { h with rules := rules' } :=
  { halike with rules := hrules }

/-- One rule: grammars that are alike expand it alike, and are alike afterwards. -/
theorem Alike.flatten {g h : Grammar} (halike : g.Alike h) (pick : Pick σ) (selector : σ)
    (rule : Text) : (g.flatten pick selector rule).Alike (h.flatten pick selector rule) := by
  have hsetting : (g.setting pick).Alike (h.setting pick) :=
    ⟨halike.modifiers, halike.maxDepth, halike.strict, halike.keepsBindings, rfl⟩
  have hstart : (g.start selector).Alike (h.start selector) := ⟨halike.rules, rfl, rfl, rfl, rfl⟩
  have hend := Follow.flattenTop hsetting rule hstart
  generalize hg : flattenTop (g.setting pick) rule (g.start selector) = last,
    hh : flattenTop (h.setting pick) rule (h.start selector) = last' at hend
  cases hend with
  | ok text hrun =>
    rw [flatten_of_ok hg, flatten_of_ok hh]
    exact ⟨rfl, congrArg List.reverse hrun.trace, hrun.selector, halike.withRules hrun.rules⟩
  | error e hrun =>
    rw [flatten_of_error hg, flatten_of_error hh]
    exact ⟨rfl, congrArg List.reverse hrun.trace, hrun.selector, halike.withRules hrun.rules⟩

/-- Expansion reads rules and modifiers only by looking names up. Two grammars with the same options
whose rules and modifiers are the same but for the order and the spelling of their names come to the
same when the same rules are expanded, one after the other, with selectors in the same state: the
same texts and failures, the same calls of the selector, and after each expansion the grammars are
again the same in that sense, whether bound values are kept or not. -/
theorem flattenEach_alike {g h : Grammar} (halike : g.Alike h) (pick : Pick σ) (selector : σ)
    (rules : List Text) :
    List.Forall₂ Outcome.Alike (g.flattenEach pick selector rules)
      (h.flattenEach pick selector rules) := by
  induction rules generalizing g h selector with
  | nil => exact .nil
  | cons rule rules ih =>
    have hfirst := halike.flatten pick selector rule
    rw [flattenEach, flattenEach, ← hfirst.selector]
    exact .cons hfirst (ih hfirst.grammar _)

/-- A loud voice. -/
def loud : Modifier := .ofFunction "a loud voice".toList (· ++ ['!'])

/-- A stammer. -/
def stammer : Modifier := .ofFunction "a stammer".toList fun t => t ++ '-' :: t

/-- A tale of a hero, which keeps the hero that it names. -/
def teller : Grammar where
  rules := .ofList [("tale".toList, ["#[Hero:#name.LOUD#]hero# calls #NAME.stammer#".toList]),
    ("hero".toList, ["Nobody".toList]), ("name".toList, ["Anna".toList, "Bob".toList])]
  modifiers := .ofList [("loud".toList, loud), ("stammer".toList, stammer)]
  keepsBindings := true

/-- The same tale, written in another order and in other letters. -/
def otherTeller : Grammar where
  rules := .ofList [("NAME".toList, ["Anna".toList, "Bob".toList]),
    ("Tale".toList, ["#[Hero:#name.LOUD#]hero# calls #NAME.stammer#".toList]),
    ("HERO".toList, ["Nobody".toList])]
  modifiers := .ofList [("Stammer".toList, stammer), ("LOUD".toList, loud)]
  keepsBindings := true

/-- The tale, and then what is kept of it, come out alike. -/
theorem tellers_alike :
    let pick := (Selector.pick : Pick (Selector MersenneTwister))
    let rules := ["#TALE#".toList, "#hero# sleeps".toList]
    let outcomes := teller.flattenEach pick (.sequential ∅) rules
    let others := otherTeller.flattenEach pick (.sequential ∅) rules
    teller.Alike otherTeller ∧ teller.rules.names ≠ otherTeller.rules.names ∧
    outcomes.map (·.result.toOption) = [some "Anna! calls Bob-Bob".toList,
      some "Anna! sleeps".toList] ∧
    List.Forall₂ Outcome.Alike outcomes others := by
  intro pick rules outcomes others
  have hrules : teller.rules.Agree otherTeller.rules :=
    ⟨NameMap.wellFormed_ofList _, NameMap.wellFormed_ofList _, by decide +kernel⟩
  have hmodifiers : NameMap.AgreeBy Modifier.apply teller.modifiers otherTeller.modifiers :=
    ⟨NameMap.wellFormed_ofList _, NameMap.wellFormed_ofList _, List.Perm.swap _ _ _⟩
  have halike : teller.Alike otherTeller := ⟨hrules, hmodifiers, rfl, rfl, rfl⟩
  exact ⟨halike, by decide +kernel, by decide +kernel,
    flattenEach_alike halike pick (.sequential ∅) rules⟩

end Grammar

end TextGrammar
