import TextGrammar.Proofs.Expansion.Verbatim
import TextGrammar.Proofs.Rule.Written
import TextGrammar.Select.MersenneTwister
import TextGrammar.Select.Selector

/-!
# A chain of modifiers is their composition

A reference sends what its symbol expands to through its modifiers, from left to right, and expands
what they give. When there is nothing left to expand, neither in what the symbol comes to nor in
what the modifiers make of it, the reference with a chain is the reference without one, sent through
the composition of the modifiers. A name in the chain that no modifier has is noted, and does
nothing else.

## Main definitions

* `chained` — a reference to a symbol with a chain of modifiers.
* `Registry.composed` — what the modifiers of names make of a text, one after the other.
* `Outcome.through` — an outcome whose text is changed, with notes behind what happened.

## Main results

* `parse_chained` — a chain is read back into the symbol and the names.
* `Grammar.flatten_chained_of_plain` — what a chain comes to.
* `Grammar.flatten_chained` — compared with the symbol alone, and with other names put into the
  chain.
-/

namespace TextGrammar

variable {σ : Type}

/-! ## Chains as they are written -/

/-- The reference to a symbol with a chain of modifiers: `#symbol.name.name#`. -/
def chained (symbol : Text) (names : List Text) : Text :=
  '#' :: Text.joined ['.'] (symbol :: names) ++ ['#']

theorem plain_joined {separator : Text} (hs : Plain separator) {parts : List Text}
    (h : ∀ part ∈ parts, Plain part) : Plain (Text.joined separator parts) := by
  induction parts with
  | nil => exact plain_nil
  | cons part parts ih =>
    obtain ⟨hpart, hrest⟩ := List.forall_mem_cons.1 h
    cases parts with
    | nil => exact hpart
    | cons next rest => exact (hpart.append hs).append (ih hrest)

/-- What is joined is not empty when its first part is not. -/
theorem joined_ne_nil {separator first : Text} (h : first ≠ []) (others : List Text) :
    Text.joined separator (first :: others) ≠ [] := by
  cases others with
  | nil => exact h
  | cons next rest => simp [Text.joined_cons_cons, h]

section Reading

variable {symbol : Text} {names : List Text}

/-- A chain is a reference whose body is all path. -/
theorem Reference.WrittenAs.chained (hsymbol : SymbolName symbol)
    (hnames : ∀ name ∈ names, Plain name ∧ '.' ∉ name) :
    (⟨chained symbol names, symbol, names, []⟩ : Reference).WrittenAs
      ⟨Text.joined ['.'] (symbol :: names), []⟩ where
  written := by
    obtain ⟨hne, hh, ho, -⟩ := hsymbol
    refine ⟨by simpa [Body.text] using joined_ne_nil hne names, plain_joined (by decide) ?_,
      by simp⟩
    exact List.forall_mem_cons.2 ⟨⟨hh, ho⟩, fun name hn => (hnames name hn).1⟩
  raw := by simp [TextGrammar.chained, Body.text]
  bindings := rfl
  path := by simp [Body.path]
  parts := List.forall_mem_cons.2 ⟨hsymbol.2.2.2, fun name hn => (hnames name hn).2⟩

/-- A chain is read back into its symbol and its names. -/
theorem parse_chained (hsymbol : SymbolName symbol)
    (hnames : ∀ name ∈ names, Plain name ∧ '.' ∉ name) :
    parse (chained symbol names) = [.reference ⟨chained symbol names, symbol, names, []⟩] := by
  have hwritten := Reference.WrittenAs.chained hsymbol hnames
  have htext : chained symbol names
      = '#' :: (Body.text ⟨Text.joined ['.'] (symbol :: names), []⟩ ++ ['#']) := by
    simp [chained, Body.text]
  refine (congrArg parse htext).trans ?_
  rw [parse_reference (hwritten.written.closeReference_text []) hwritten.written.1, parse_nil,
    ← hwritten.eq_ofBody]

end Reading

/-! ## Composed modifiers -/

namespace Registry

/-- Sends a text through the modifiers that the names have, from left to right. -/
def composed (modifiers : Registry) (names : List Text) (text : Text) : Text :=
  (names.filterMap modifiers.get?).foldl (fun t m => m.apply t) text

/-- What is noted of the names that no modifier has, in the reference that they stand in. -/
def unknownIn (modifiers : Registry) (reference : Text) (names : List Text) : List Event :=
  (names.filter fun name => (modifiers.get? name).isNone).map (.unknownModifier · reference)

/-- What chains have in common that differ in names that no modifier has. -/
theorem composed_congr {modifiers : Registry} {names more : List Text}
    (h : more.filter modifiers.contains = names.filter modifiers.contains) (text : Text) :
    modifiers.composed more text = modifiers.composed names text := by
  have hknown : ∀ chain : List Text,
      (chain.filter modifiers.contains).filterMap modifiers.get?
        = chain.filterMap modifiers.get? := by
    intro chain
    rw [List.filterMap_filter]
    refine List.filterMap_congr fun name _ => ?_
    rw [NameMap.contains_eq_isSome]
    cases modifiers.get? name <;> rfl
  rw [composed, composed, ← hknown more, h, hknown names]

end Registry

/-- Going through a chain passes over the names that no modifier has. -/
theorem Setting.modified_eq_composed (s : Setting σ) (names : List Text) (text : Text) :
    s.modified names text = s.modifiers.composed names text := by
  rw [Setting.modified, Registry.composed, List.foldl_filterMap]
  refine congrArg (fun step => names.foldl step text) ?_
  funext t name
  cases s.modifiers.get? name <;> rfl

/-! ## Expanding them -/

/-- An outcome whose text is changed by `change`, with `notes` behind all that happened. -/
def Outcome.through (o : Outcome σ) (change : Text → Text) (notes : List Event) : Outcome σ :=
  { o with result := o.result.map change, events := o.events ++ notes }

/-- A reference without bindings comes out as what its modifiers make of what its symbol comes to,
when there is nothing to expand in that. -/
theorem expandReference_of_plain {s : Setting σ} {levels : Nat} {r : Reference} {t : Text}
    {run mid : Run σ} (hb : r.bindings = [])
    (hvalue : (resolve s r.symbol >>= flatten s levels) run = .ok t mid)
    (hplain : Plain (s.modified r.modifiers t)) :
    expandReference s (flatten s levels) r run
      = .ok (s.modified r.modifiers t) (mid.noted (s.notes r.raw r.modifiers)) := by
  obtain ⟨value, before, hresolve, hinner⟩ := Expansion.exists_of_run_bind_eq_ok hvalue
  have hbindings : runBindings s (flatten s levels) r.bindings run = .ok () run := by
    rw [hb]
    rfl
  rw [expandReference, Expansion.run_bind_of_ok hbindings, Expansion.run_bind_of_ok hresolve,
    Expansion.run_bind_of_ok hinner,
    Expansion.run_bind_of_ok (applyModifiers_run s r.raw r.modifiers t mid),
    flatten_of_not_hasSyntax s levels (hasSyntax_eq_false_iff.2 hplain)]
  rfl

namespace Grammar

variable {g : Grammar} {pick : Pick σ} {selector : σ} {symbol t : Text} {names : List Text}
  {run : Run σ}

/-- A chain comes to what its modifiers make of what its symbol comes to, when there is nothing to
expand in that. -/
theorem flatten_chained_of_plain (hdepth : 0 ≤ g.maxDepth) (hsymbol : SymbolName symbol)
    (hnames : ∀ name ∈ names, Plain name ∧ '.' ∉ name)
    (hvalue : (resolve (g.setting pick) symbol >>=
      TextGrammar.flatten (g.setting pick) g.maxDepth.toNat) (g.start selector) = .ok t run)
    (hplain : Plain (g.modifiers.composed names t)) :
    g.flatten pick selector (chained symbol names)
      = (g.finished t run).through (g.modifiers.composed names)
          (g.modifiers.unknownIn (chained symbol names) names) := by
  have hlevels : (g.setting pick).levels = g.maxDepth.toNat + 1 := by
    show (g.maxDepth + 1).toNat = _
    omega
  have hmodified := (g.setting pick).modified_eq_composed names t
  have hreference := expandReference_of_plain (s := g.setting pick)
    (r := ⟨chained symbol names, symbol, names, []⟩) rfl hvalue (hmodified ▸ hplain)
  have htop : flattenTop (g.setting pick) (chained symbol names) (g.start selector)
      = .ok (g.modifiers.composed names t)
          (run.noted ((g.setting pick).notes (chained symbol names) names)) := by
    rw [flattenTop, hlevels, flatten_succ_eq_expandNodes _ _ _ rfl, parse_chained hsymbol hnames,
      expandNodes_cons_eq_ok_iff]
    exact ⟨_, _, [], hreference, rfl, by rw [List.append_nil]; exact hmodified.symm⟩
  rw [flatten_of_ok htop]
  simp [finished, Outcome.through, Run.events, Run.noted, Setting.notes, Registry.unknownIn,
    setting, Except.map]

/-- A chain of modifiers is their composition, and names that no modifier has do nothing in it. When
what the symbol stands for expands to a text, and neither in this text nor in what the modifiers of
the chain make of it in the end is there anything to expand, then the reference to the symbol alone
comes to the text; the reference with the chain does the same, the same calls of the selector with
the same answers and the same rules afterwards, its text sent through the modifiers from left to
right, with a note of each name that no modifier has; and so does every chain that differs from it
in names that no modifier has, wherever they stand, but for these notes. -/
theorem flatten_chained (g : Grammar) (hdepth : 0 ≤ g.maxDepth) (hsymbol : SymbolName symbol)
    (hnames : ∀ name ∈ names, Plain name ∧ '.' ∉ name)
    (hvalue : (resolve (g.setting pick) symbol >>=
      TextGrammar.flatten (g.setting pick) g.maxDepth.toNat) (g.start selector) = .ok t run)
    (hplain : Plain t) (hcomposed : Plain (g.modifiers.composed names t)) :
    let alone := g.flatten pick selector ('#' :: symbol ++ ['#'])
    alone.result = .ok t ∧
      g.flatten pick selector (chained symbol names) = alone.through (g.modifiers.composed names)
        (g.modifiers.unknownIn (chained symbol names) names) ∧
      ∀ more, (∀ name ∈ more, Plain name ∧ '.' ∉ name) →
        more.filter g.modifiers.contains = names.filter g.modifiers.contains →
        g.flatten pick selector (chained symbol more) = alone.through (g.modifiers.composed names)
          (g.modifiers.unknownIn (chained symbol more) more) := by
  intro alone
  have hnone : ∀ name ∈ ([] : List Text), Plain name ∧ '.' ∉ name := fun _ hn => nomatch hn
  have halone : alone = g.finished t run := by
    refine (flatten_chained_of_plain hdepth hsymbol hnone hvalue hplain).trans ?_
    simp [Outcome.through, finished, Registry.unknownIn, Registry.composed, Except.map]
  rw [halone]
  refine ⟨rfl, flatten_chained_of_plain hdepth hsymbol hnames hvalue hcomposed, ?_⟩
  intro more hmore hsame
  have hcongr : g.modifiers.composed more = g.modifiers.composed names :=
    funext (Registry.composed_congr hsame)
  rw [← hcongr] at hcomposed ⊢
  exact flatten_chained_of_plain hdepth hsymbol hmore hvalue hcomposed

/-- Names to be called out, one of which binds a hero that is kept. -/
def crier : Grammar where
  rules := .ofList [("name".toList, ["#[hero:Anna]hero# B.".toList, "Carl".toList])]
  modifiers := .ofList [("loud".toList, .ofFunction "a loud voice".toList (· ++ ['!'])),
    ("twice".toList, .ofFunction "an echo".toList fun t => t ++ ' ' :: t)]
  keepsBindings := true

/-- A name is called out by two modifiers, with two names in the chain that no modifier has, and one
more that is empty when they are put elsewhere. -/
theorem crier_calls_out :
    let pick := (Selector.pick : Pick (Selector MersenneTwister))
    let names := ["shy".toList, "LOUD".toList, "Twice".toList]
    let more := ["LOUD".toList, [], "shy".toList, "Twice".toList, "shy".toList]
    let alone := crier.flatten pick (.sequential ∅) "#NAME#".toList
    (0 ≤ crier.maxDepth ∧ SymbolName "NAME".toList ∧ (∀ name ∈ names, Plain name ∧ '.' ∉ name) ∧
      Plain "Anna B.".toList ∧ Plain (crier.modifiers.composed names "Anna B.".toList) ∧
      (∀ name ∈ more, Plain name ∧ '.' ∉ name) ∧
      more.filter crier.modifiers.contains = names.filter crier.modifiers.contains) ∧
    alone.result = .ok "Anna B.".toList ∧
    crier.modifiers.composed names "Anna B.".toList = "Anna B.! Anna B.!".toList ∧
    crier.flatten pick (.sequential ∅) "#NAME.shy.LOUD.Twice#".toList
      = alone.through (crier.modifiers.composed names)
        [.unknownModifier "shy".toList "#NAME.shy.LOUD.Twice#".toList] ∧
    crier.flatten pick (.sequential ∅) "#NAME.LOUD..shy.Twice.shy#".toList
      = alone.through (crier.modifiers.composed names)
        (crier.modifiers.unknownIn "#NAME.LOUD..shy.Twice.shy#".toList more) := by
  intro pick names more alone
  have hdepth : 0 ≤ crier.maxDepth := by decide
  have hsymbol : SymbolName "NAME".toList := by decide +kernel
  have hnames : ∀ name ∈ names, Plain name ∧ '.' ∉ name := by decide +kernel
  have hplain : Plain "Anna B.".toList := by decide +kernel
  have hcomposed : Plain (crier.modifiers.composed names "Anna B.".toList) := by decide +kernel
  have hmore : ∀ name ∈ more, Plain name ∧ '.' ∉ name := by decide +kernel
  have hsame : more.filter crier.modifiers.contains = names.filter crier.modifiers.contains := by
    decide +kernel
  have hvalue : (resolve (crier.setting pick) "NAME".toList >>=
      TextGrammar.flatten (crier.setting pick) crier.maxDepth.toNat).run'
        (crier.start (.sequential ∅)) = some "Anna B.".toList := by decide +kernel
  obtain ⟨run, hrun⟩ := Expansion.exists_ok_of_run' hvalue
  obtain ⟨halone, hwhole, hrest⟩ :=
    flatten_chained crier hdepth hsymbol hnames hrun hplain hcomposed
  have hunknown : crier.modifiers.unknownIn (chained "NAME".toList names) names
      = [.unknownModifier "shy".toList "#NAME.shy.LOUD.Twice#".toList] := by decide +kernel
  rw [hunknown] at hwhole
  exact ⟨⟨hdepth, hsymbol, hnames, hplain, hcomposed, hmore, hsame⟩, halone, by decide +kernel,
    hwhole, hrest more hmore hsame⟩

end Grammar

end TextGrammar
