import TextGrammar.Proofs.NameMap.Entries
import TextGrammar.Proofs.NameMap.Writing
import TextGrammar.Proofs.Select.Answers

/-!
# Routing symbols to the parts of a composite

A composite hands each symbol to the part that the symbol names, and a symbol names what stands
behind its last marker. Markers may overlap: the last one is the one that begins last. A part never
learns of what is offered to others, so it answers as it would answer alone. This needs nothing of
the parts but that each has a memory of its own: they may be selectors of any kind.

## Main definitions

* `NamesPart` — the name that a symbol names, by the places where the marker is written.
* `Pick.composite` — parts of any kind, as one selector.
* `Pick.Routes` — each part answers as if it were alone, and a symbol without a part changes
  nothing.

## Main results

* `routeName_eq_iff` — which name a symbol names.
* `Pick.routes_composite` — parts of any kind are routed to.
* `Selector.pick_composite` — a composite selector is its parts as one selector.
* `composite_routes` — what a composite selector answers, told by its parts.
-/

namespace TextGrammar

/-! ## The name behind the last marker -/

/-- A text is cut at the last place where the marker is written in it: behind `before`, and nowhere
further on. -/
structure CutAtLast (marker t before after : Text) : Prop where
  eq : t = before ++ marker ++ after
  /-- Wherever the marker is written it begins no later. -/
  last : ∀ q r, t = q ++ marker ++ r → q.length ≤ before.length

/-- The name that a symbol names: what stands behind the last marker, and the symbol itself when the
marker is not written in it. -/
inductive NamesPart (marker symbol : Text) : Text → Prop
  /-- The name stands behind the last marker. -/
  | behind {before name : Text} (h : CutAtLast marker symbol before name) :
    NamesPart marker symbol name
  /-- There is no marker. -/
  | whole (h : ¬ marker <:+: symbol) : NamesPart marker symbol symbol

section Markers

variable {marker t symbol name : Text}

/-- There is one last marker. -/
theorem CutAtLast.unique {before before' after after' : Text}
    (h : CutAtLast marker t before after) (h' : CutAtLast marker t before' after') :
    after = after' := by
  have hlength : before.length = before'.length :=
    le_antisymm (h'.last before after h.eq) (h.last before' after' h'.eq)
  have heq : before ++ (marker ++ after) = before' ++ (marker ++ after') := by
    rw [← List.append_assoc, ← h.eq, h'.eq, List.append_assoc]
  exact List.append_cancel_left (List.append_inj heq hlength).2

theorem CutAtLast.isInfix {before after : Text} (h : CutAtLast marker t before after) :
    marker <:+: t := ⟨before, after, h.eq.symm⟩

/-- A last marker is the last one behind one more character, too. -/
theorem CutAtLast.cons {before after : Text} (h : CutAtLast marker t before after) (c : Char) :
    CutAtLast marker (c :: t) (c :: before) after where
  eq := congrArg (c :: ·) h.eq
  last q r hq := by
    cases q with
    | nil => exact Nat.zero_le _
    | cons d q =>
      rw [List.cons_append, List.cons_append, List.cons.injEq] at hq
      exact Nat.succ_le_succ (h.last q r hq.2)

/-- A marker that is written nowhere further on is the last one. -/
theorem CutAtLast.start {c : Char} {after : Text} (heq : c :: t = marker ++ after)
    (h : ¬ marker <:+: t) : CutAtLast marker (c :: t) [] after where
  eq := heq
  last q r hq := by
    cases q with
    | nil => exact le_rfl
    | cons d q =>
      rw [List.cons_append, List.cons_append, List.cons.injEq] at hq
      exact absurd ⟨q, r, hq.2.symm⟩ h

theorem afterLast?_eq_none_iff : afterLast? marker t = none ↔ ¬ marker <:+: t := by
  induction t with
  | nil => rw [afterLast?, Text.dropStart?_eq_none_iff, List.prefix_nil, List.infix_nil]
  | cons c t ih =>
    rw [afterLast?, List.infix_cons_iff, not_or, ← Text.dropStart?_eq_none_iff, ← ih]
    cases afterLast? marker t with
    | none => simp
    | some rest => simp

/-- What follows the last marker is found. -/
theorem exists_cutAtLast {after : Text} (h : afterLast? marker t = some after) :
    ∃ before, CutAtLast marker t before after := by
  induction t with
  | nil =>
    have heq := Text.eq_append_of_dropStart? h
    refine ⟨[], heq, fun q r hq => ?_⟩
    rw [List.append_assoc] at hq
    rw [(List.append_eq_nil_iff.1 hq.symm).1]
  | cons c t ih =>
    rw [afterLast?] at h
    cases hrest : afterLast? marker t with
    | some rest =>
      rw [hrest] at h
      obtain rfl : rest = after := Option.some.inj h
      obtain ⟨before, hcut⟩ := ih hrest
      exact ⟨c :: before, hcut.cons c⟩
    | none =>
      rw [hrest] at h
      exact ⟨[], .start (Text.eq_append_of_dropStart? h) (afterLast?_eq_none_iff.1 hrest)⟩

theorem NamesPart.unique {other : Text} (h : NamesPart marker symbol name)
    (h' : NamesPart marker symbol other) : name = other := by
  cases h with
  | behind h =>
    cases h' with
    | behind h' => exact h.unique h'
    | whole hno => exact absurd h.isInfix hno
  | whole hno =>
    cases h' with
    | behind h' => exact absurd h'.isInfix hno
    | whole => rfl

/-- Every symbol names one part: what stands behind the last marker, or the whole symbol. -/
theorem routeName_eq_iff : routeName marker symbol = name ↔ NamesPart marker symbol name := by
  have hnames : NamesPart marker symbol (routeName marker symbol) := by
    rw [routeName]
    cases hafter : afterLast? marker symbol with
    | none => exact .whole (afterLast?_eq_none_iff.1 hafter)
    | some after =>
      obtain ⟨before, hcut⟩ := exists_cutAtLast hafter
      exact .behind hcut
  constructor
  · rintro rfl
    exact hnames
  · exact hnames.unique

end Markers

/-- Of two markers that overlap the one that begins last counts. -/
example : routeName "**".toList "hue***Deck".toList = "Deck".toList := by decide

/-! ## Parts as one selector -/

/-- Whether a symbol of an offer names a part, in any case. -/
def Offer.goesTo (marker name : Text) (o : Offer) : Bool :=
  Text.sameName (routeName marker o.symbol) name

/-- Each part of a whole answers the offers that go to it as it would answer them alone, without any
others; an offer that goes to no part is answered with nothing and changes nothing. The parts are
looked up by their names as they are at the start. -/
structure Pick.Routes {κ τ : Type} (whole : Pick κ) (start : κ) (marker : Text) (pick : Pick τ)
    (part? : Text → Option τ) : Prop where
  /-- The exchanges with a part. -/
  routed : ∀ offers name part, part? name = some part →
    (whole.exchanges start offers).filter (·.1.goesTo marker name)
      = pick.exchanges part (offers.filter (·.goesTo marker name))
  /-- The offers that go to no part. -/
  astray : ∀ offers symbol candidates, part? (routeName marker symbol) = none →
    whole (whole.after start offers) symbol candidates = ([], whole.after start offers)

namespace Pick

variable {τ : Type}

/-- Parts with names, as one selector: the part that a symbol names answers and goes on, all others
stay as they are. -/
def composite (pick : Pick τ) (marker : Text) : Pick (NameMap τ) := fun parts symbol candidates =>
  match parts.find? (routeName marker symbol) with
  | none => ([], parts)
  | some (name, part) =>
    ((pick part symbol candidates).1, parts.insert name (pick part symbol candidates).2)

section Step

variable (pick : Pick τ) (marker : Text) {parts : NameMap τ} {symbol name : Text} {part : τ}
  (candidates : List Text)

/-- A symbol that names no part is answered with nothing and changes nothing. -/
theorem composite_of_none (h : parts.get? (routeName marker symbol) = none) :
    pick.composite marker parts symbol candidates = ([], parts) := by
  rw [NameMap.get?, Option.map_eq_none_iff] at h
  rw [composite, h]

/-- The part that a symbol names answers, and goes on under its spelling. -/
theorem exists_composite_of_some (h : parts.get? (routeName marker symbol) = some part) :
    ∃ spelling, Text.lower spelling = Text.lower (routeName marker symbol) ∧
      pick.composite marker parts symbol candidates
        = ((pick part symbol candidates).1,
            parts.insert spelling (pick part symbol candidates).2) := by
  obtain ⟨⟨spelling, held⟩, hfind, rfl⟩ := Option.map_eq_some_iff.1 h
  have hname : Text.sameName spelling (routeName marker symbol) = true :=
    List.find?_some (p := fun e : Text × τ => Text.sameName e.1 _) hfind
  refine ⟨spelling, (Text.sameName_iff _ _).1 hname, ?_⟩
  rw [composite, hfind]

/-- After a symbol that names a part the part has gone on by one answer. -/
theorem get?_composite_of_eq (hname : Text.lower (routeName marker symbol) = Text.lower name)
    (h : parts.get? name = some part) :
    (pick.composite marker parts symbol candidates).2.get? name
      = some (pick part symbol candidates).2 := by
  rw [← NameMap.get?_congr parts hname] at h
  obtain ⟨spelling, hspelling, heq⟩ := exists_composite_of_some pick marker candidates h
  rw [heq]
  exact NameMap.get?_insert_of_lower_eq parts _ (hname.symm.trans hspelling.symm)

/-- After a symbol that names another part a part is as it was. -/
theorem get?_composite_of_ne (hname : Text.lower (routeName marker symbol) ≠ Text.lower name) :
    (pick.composite marker parts symbol candidates).2.get? name = parts.get? name := by
  cases h : parts.get? (routeName marker symbol) with
  | none => rw [composite_of_none pick marker candidates h]
  | some part =>
    obtain ⟨spelling, hspelling, heq⟩ := exists_composite_of_some pick marker candidates h
    rw [heq]
    exact NameMap.get?_insert_of_lower_ne parts _ fun heq => hname (hspelling.symm.trans heq.symm)

/-- No answer brings in a part or takes one out. -/
theorem get?_composite_eq_none_iff (symbol : Text) :
    (pick.composite marker parts symbol candidates).2.get? name = none
      ↔ parts.get? name = none := by
  by_cases hname : Text.lower (routeName marker symbol) = Text.lower name
  · cases h : parts.get? name with
    | none =>
      rw [← NameMap.get?_congr parts hname] at h
      rw [composite_of_none pick marker candidates h, ← NameMap.get?_congr parts hname, h]
    | some part =>
      rw [get?_composite_of_eq pick marker candidates hname h]
      exact ⟨nofun, nofun⟩
  · rw [get?_composite_of_ne pick marker candidates hname]

end Step

variable (pick : Pick τ) (marker : Text)

/-- The exchanges with a part are those that it has alone with the offers that go to it. -/
theorem filter_exchanges_composite {parts : NameMap τ} {name : Text} {part : τ}
    (h : parts.get? name = some part) (offers : List Offer) :
    ((pick.composite marker).exchanges parts offers).filter (·.1.goesTo marker name)
      = pick.exchanges part (offers.filter (·.goesTo marker name)) := by
  induction offers generalizing parts part with
  | nil => rfl
  | cons o offers ih =>
    rw [exchanges_cons]
    by_cases hname : Text.lower (routeName marker o.symbol) = Text.lower name
    · have hgoes : o.goesTo marker name = true := (Text.sameName_iff _ _).2 hname
      have hanswer : (pick.composite marker parts o.symbol o.candidates).1
          = (pick part o.symbol o.candidates).1 := by
        rw [← NameMap.get?_congr parts hname] at h
        obtain ⟨spelling, -, heq⟩ := exists_composite_of_some pick marker o.candidates h
        rw [heq]
      rw [List.filter_cons_of_pos (by exact hgoes), List.filter_cons_of_pos (by exact hgoes),
        exchanges_cons, hanswer, ih (get?_composite_of_eq pick marker o.candidates hname h)]
    · have hgoes : ¬ o.goesTo marker name = true := fun h => hname ((Text.sameName_iff _ _).1 h)
      rw [List.filter_cons_of_neg (by exact hgoes), List.filter_cons_of_neg (by exact hgoes)]
      exact ih ((get?_composite_of_ne pick marker o.candidates hname).trans h)

theorem get?_after_composite_eq_none_iff {parts : NameMap τ} {name : Text} (offers : List Offer) :
    ((pick.composite marker).after parts offers).get? name = none ↔ parts.get? name = none := by
  induction offers generalizing parts with
  | nil => rfl
  | cons o offers ih =>
    exact ih.trans (get?_composite_eq_none_iff pick marker o.candidates o.symbol)

/-- Parts of any kind are routed to. -/
theorem routes_composite (parts : NameMap τ) :
    (pick.composite marker).Routes parts marker pick parts.get? where
  routed offers _ _ h := filter_exchanges_composite pick marker h offers
  astray offers _ candidates h :=
    composite_of_none pick marker candidates
      ((get?_after_composite_eq_none_iff pick marker offers).2 h)

/-! ## The same selector in another shape -/

section Image

variable {κ ι : Type} {whole : Pick κ} {other : Pick ι} {shape : κ → ι}
  (hshape : ∀ state symbol candidates, other (shape state) symbol candidates
    = ((whole state symbol candidates).1, shape (whole state symbol candidates).2))

include hshape

theorem exchanges_shape (state : κ) (offers : List Offer) :
    other.exchanges (shape state) offers = whole.exchanges state offers := by
  induction offers generalizing state with
  | nil => rfl
  | cons o offers ih => rw [exchanges_cons, hshape, ih, exchanges_cons]

theorem after_shape (state : κ) (offers : List Offer) :
    other.after (shape state) offers = shape (whole.after state offers) := by
  induction offers generalizing state with
  | nil => rfl
  | cons o offers ih => rw [after_cons, hshape, ih, after_cons]

/-- What is routed in one shape of a selector is routed in every other. -/
theorem Routes.reshaped {start : κ} {part? : Text → Option τ}
    (h : whole.Routes start marker pick part?) : other.Routes (shape start) marker pick part? where
  routed offers name part hpart := by
    rw [exchanges_shape hshape]
    exact h.routed offers name part hpart
  astray offers symbol candidates hnone := by
    rw [after_shape hshape, hshape, h.astray offers symbol candidates hnone]

end Image

end Pick

/-! ## Composite selectors -/

namespace Selector

variable {σ : Type} [RandomSource σ]

/-- A composite selector is its parts as one selector. -/
theorem pick_composite (marker : Text) (parts : NameMap (Selector σ)) (symbol : Text)
    (candidates : List Text) :
    (composite marker parts.entries).pick symbol candidates
      = ((Pick.composite pick marker parts symbol candidates).1,
          composite marker (Pick.composite pick marker parts symbol candidates).2.entries) := by
  obtain ⟨entries⟩ := parts
  rw [pick]
  rcases parts_cases entries (routeName marker symbol) with hne | ⟨before, p, after, rfl, hb, hp⟩
  · have hnone : (⟨entries⟩ : NameMap (Selector σ)).find? (routeName marker symbol) = none :=
      List.find?_eq_none.2 fun p hp => by simpa using hne p hp
    rw [pickAmong_of_ne hne, Pick.composite, hnone]
  · have hfind : (⟨before ++ p :: after⟩ : NameMap (Selector σ)).find? (routeName marker symbol)
        = some p := NameMap.find?_parts hp hb
    have hinsert : NameMap.insertEntry p.1 (p.2.pick symbol candidates).2 (before ++ p :: after)
        = before ++ (p.1, (p.2.pick symbol candidates).2) :: after :=
      NameMap.insertEntry_parts _ rfl fun q hq heq => hb q hq (heq.trans hp)
    rw [pickAmong_of_eq hb hp, Pick.composite, hfind, NameMap.entries_insert, hinsert]

end Selector

/-- The part of a name; of several parts that are given one name the last one counts. -/
def partOf? {τ : Type} (parts : List (Text × τ)) (name : Text) : Option τ :=
  (NameMap.lastWrite parts name).map (·.2)

theorem get?_ofList {τ : Type} (parts : List (Text × τ)) :
    (NameMap.ofList parts).get? = partOf? parts := by
  funext name
  have hempty : (∅ : NameMap τ).find? name = none := rfl
  rw [NameMap.get?, NameMap.ofList, NameMap.find?_insertAll, hempty, Option.or_none, partOf?]

/-- **A composite is a faithful router.** A symbol names what stands behind the last place where the
marker is written in it, and itself where the marker is not written. A composite of any selectors,
each with a memory of its own, answers the offers for symbols that name one of them, in any case, as
that one would answer them alone; what names none of them is answered with nothing and changes
nothing. Composite selectors can be built of all selectors, and are such composites. -/
theorem composite_routes {σ τ : Type} [RandomSource σ] {marker : Text} (hmarker : marker ≠ []) :
    (∀ symbol name, routeName marker symbol = name ↔ NamesPart marker symbol name) ∧
    (∀ (pick : Pick τ) (parts : List (Text × τ)),
      (pick.composite marker).Routes (NameMap.ofList parts) marker pick (partOf? parts)) ∧
    ∀ parts : List (Text × Selector σ), ∃ whole, Selector.compose marker parts = .ok whole ∧
      Pick.Routes Selector.pick whole marker Selector.pick (partOf? parts) := by
  have hroutes : ∀ {τ : Type} (pick : Pick τ) (parts : List (Text × τ)),
      (pick.composite marker).Routes (NameMap.ofList parts) marker pick (partOf? parts) := by
    intro τ pick parts
    rw [← get?_ofList]
    exact pick.routes_composite marker (NameMap.ofList parts)
  refine ⟨fun symbol name => routeName_eq_iff, hroutes, fun parts => ?_⟩
  refine ⟨_, Selector.compose_eq_ok_iff.2 ⟨hmarker, rfl⟩, ?_⟩
  exact Pick.Routes.reshaped Selector.pick marker (Selector.pick_composite marker)
    (hroutes Selector.pick parts)

/-- Two walks and a first candidate, behind a marker that overlaps with itself. The walks do not
disturb each other, a later part of a name stands for the earlier one, and what names no part is
answered with nothing. -/
theorem walks_part_at_markers :
    let marker := "**".toList
    let parts : List (Text × Selector MersenneTwister) := [("walk".toList, .first),
      ("round".toList, .sequential ∅), ("Walk".toList, .sequential ∅)]
    let colours := ["red".toList, "blue".toList]
    let offers : List Offer := [⟨"hue***walk".toList, colours⟩, ⟨"shade**round".toList, colours⟩,
      ⟨"tint".toList, colours⟩, ⟨"Hue***WALK".toList, colours⟩]
    marker ≠ [] ∧ NamesPart marker "hue***walk".toList "walk".toList ∧
    ∃ whole, Selector.compose marker parts = .ok whole ∧
      (Pick.exchanges Selector.pick whole offers).filter (·.1.goesTo marker "walk".toList)
        = [(⟨"hue***walk".toList, colours⟩, "red".toList),
            (⟨"Hue***WALK".toList, colours⟩, "blue".toList)] ∧
      (Pick.after Selector.pick whole offers).pick "tint".toList colours
        = ([], Pick.after Selector.pick whole offers) := by
  intro marker parts colours offers
  have hmarker : marker ≠ [] := by decide
  obtain ⟨hnames, -, hbuilt⟩ := composite_routes (σ := MersenneTwister) (τ := Unit) hmarker
  obtain ⟨whole, hwhole, hroutes⟩ := hbuilt parts
  have hwalk : partOf? parts "walk".toList = some (.sequential ∅) := by rfl
  have htint : partOf? parts (routeName marker "tint".toList) = none := by rfl
  refine ⟨hmarker, (hnames _ _).1 (by decide), whole, hwhole, ?_, ?_⟩
  · rw [hroutes.routed offers _ _ hwalk]
    decide +kernel
  · exact hroutes.astray offers "tint".toList colours htint

end TextGrammar
