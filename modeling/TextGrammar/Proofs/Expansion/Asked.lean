import TextGrammar.Proofs.Expansion.Repeated

/-!
# What the selector is asked for

An expansion asks its selector in one place only: where the bindings of a reference are run and its
symbol, which is no variable, has a rule. The reference was read from some rule, and reading leaks
no delimiter into a symbol. So a symbol with a hash, an opening bracket or a full stop in its name
is never asked for: it may have a rule, but nothing that is read refers to it.

## Main definitions

* `offersIn`, `Run.offers` — the offers to the selector, in order.
* `Reference.IsRead`, `Machine.Reads` — whatever is worked on was read; every step keeps it.

## Main results

* `Machine.offers_of_next` — what a step adds to the offers.
* `Machine.Reads.next`, `Machine.Reads.walks` — one step, and any number of steps.
* `Grammar.offers_prefix_of_walks` — the offers up to a point of an expansion come first.
* `Grammar.exists_reference_of_offer` — every offer is for the symbol of a reference that was read.
* `Grammar.plain_symbol_of_offer` — so no symbol that is offered has a delimiter in its name.
-/

namespace TextGrammar

variable {σ : Type}

/-! ## The offers of a run -/

/-- The offer that an event answers. -/
def Event.offer? : Event → Option Offer
  | .picked symbol candidates _ => some ⟨symbol, candidates⟩
  | _ => none

/-- The offers that events answer, in order. -/
def offersIn (events : List Event) : List Offer := events.filterMap Event.offer?

theorem offersIn_append (events more : List Event) :
    offersIn (events ++ more) = offersIn events ++ offersIn more :=
  List.filterMap_append

namespace Run

/-- The offers so far, the earliest first. -/
def offers (run : Run σ) : List Offer := offersIn run.events

theorem offers_choose (run : Run σ) (pick : Pick σ) (symbol : Text) (candidates : List Text) :
    (run.choose pick symbol candidates).2.offers = run.offers ++ [⟨symbol, candidates⟩] := by
  simp [offers, offersIn, events, choose, Event.offer?]

theorem offers_bind (run : Run σ) (keeps : Bool) (name value : Text) :
    (run.bind keeps name value).offers = run.offers := by
  simp [offers, offersIn, events, bind, Event.offer?]

theorem offers_noted (run : Run σ) (s : Setting σ) (reference : Text) (names : List Text) :
    (run.noted (s.notes reference names)).offers = run.offers := by
  have hnone := s.filterMap_notes reference names fun _ _ => (rfl : Event.offer? _ = none)
  simp [offers, offersIn, events, noted, List.filterMap_reverse, hnone]

theorem offers_tooDeep (run : Run σ) (limit : Int) (rule : Text) :
    ({ run.record (.tooDeep limit rule) with truncated := true } : Run σ).offers = run.offers := by
  simp [offers, offersIn, events, record, Event.offer?]

end Run

namespace Machine

variable {s : Setting σ} {m m' : Machine σ}

/-- Where a symbol that is no variable has a rule, the step asks for one of its candidates. -/
theorem run_of_next_of_offer? {o : Offer} (ho : m.offer? = some o) (h : m.next s = some m') :
    m'.run = (m.run.choose s.pick o.symbol o.candidates).2 := by
  obtain ⟨focus, frames, run⟩ := m
  cases focus with
  | bindings levels bindings r =>
    cases bindings with
    | cons b more => cases ho
    | nil =>
      simp only [offer?, Option.ite_none_left_eq_some, Option.map_eq_some_iff] at ho
      obtain ⟨hb, candidates, hc, rfl⟩ := ho
      rw [next, resolve_of_candidates (by simpa using hb) hc] at h
      cases h
      rfl
  | _ => cases ho

/-- A step adds the offer that it makes, and nothing else. -/
theorem offers_of_next (h : m.next s = some m') :
    m'.run.offers = m.run.offers ++ m.offer?.toList := by
  cases ho : m.offer? with
  | some o => rw [run_of_next_of_offer? ho h, Run.offers_choose, Option.toList_some]
  | none =>
    rw [Option.toList_none, List.append_nil]
    have hchange := change_of_next h
    generalize m'.run = last at hchange
    cases hchange with
    | same => rfl
    | @limit rule _ _ => exact m.run.offers_tooDeep s.maxDepth rule
    | choose hchoose =>
      rw [ho] at hchoose
      cases hchoose
    | @bind name value _ => exact m.run.offers_bind s.keepsBindings name value
    | note reference names => exact m.run.offers_noted s reference names

/-- The offers up to a point come before all others. -/
theorem offers_prefix (h : Walks s m m') : m.run.offers <+: m'.run.offers := by
  induction h with
  | refl => exact List.prefix_rfl
  | @tail mid last _ hstep ih =>
    rw [offers_of_next hstep]
    exact ih.trans (List.prefix_append mid.run.offers mid.offer?.toList)

end Machine

/-! ## What is worked on was read -/

/-- The reference is a part of some rule. -/
def Reference.IsRead (r : Reference) : Prop := ∃ rule, .reference r ∈ parse rule

/-- The references among parts of a rule were read. -/
def AllRead (nodes : List Node) : Prop := ∀ r, .reference r ∈ nodes → r.IsRead

theorem allRead_parse (rule : Text) : AllRead (parse rule) := fun _ hr => ⟨rule, hr⟩

theorem AllRead.of_cons {node : Node} {nodes : List Node} (h : AllRead (node :: nodes)) :
    AllRead nodes := fun r hr => h r (List.mem_cons_of_mem node hr)

/-- The references that are worked on were read. -/
def Focus.Reads : Focus → Prop
  | .parts _ _ nodes => AllRead nodes
  | .bindings _ _ r => r.IsRead
  | _ => True

/-- The references that are pending were read. -/
def Frame.Reads : Frame → Prop
  | .parts _ _ after => AllRead after
  | .binding _ _ _ r => r.IsRead
  | _ => True

namespace Machine

/-- All references that are worked on or pending were read. -/
structure Reads (m : Machine σ) : Prop where
  focus : m.focus.Reads
  frames : ∀ f ∈ m.frames, f.Reads

variable {s : Setting σ} {m m' : Machine σ} {α : Type}

/-- When a step ends it goes on with what is pending, and when it fails nothing is. -/
theorem reads_settle {frames : List Frame} {focus : α → Focus} (hfocus : ∀ a, (focus a).Reads)
    (hframes : ∀ f ∈ frames, f.Reads) (result : EStateM.Result DepthExceeded (Run σ) α) :
    (settle frames focus result).Reads := by
  cases result with
  | ok a run => exact ⟨hfocus a, hframes⟩
  | error e run => exact ⟨trivial, by simp [settle]⟩

theorem Reads.next_parts {levels : Nat} {before : Text} {nodes : List Node} {frames : List Frame}
    {run : Run σ} (hm : Reads ⟨.parts levels before nodes, frames, run⟩)
    (h : (⟨.parts levels before nodes, frames, run⟩ : Machine σ).next s = some m') : m'.Reads := by
  obtain ⟨hfocus, hframes⟩ := hm
  cases nodes with
  | nil =>
    cases h
    exact ⟨trivial, hframes⟩
  | cons node after =>
    have hafter : Frame.Reads (.parts levels before after) := AllRead.of_cons hfocus
    cases node with
    | text value =>
      cases h
      exact ⟨hafter, hframes⟩
    | binding b =>
      cases h
      exact ⟨trivial, List.forall_mem_cons.2 ⟨trivial, List.forall_mem_cons.2 ⟨hafter, hframes⟩⟩⟩
    | reference r =>
      cases h
      exact ⟨hfocus r List.mem_cons_self, List.forall_mem_cons.2 ⟨hafter, hframes⟩⟩

theorem Reads.next_bindings {levels : Nat} {bindings : List Binding} {r : Reference}
    {frames : List Frame} {run : Run σ} (hm : Reads ⟨.bindings levels bindings r, frames, run⟩)
    (h : (⟨.bindings levels bindings r, frames, run⟩ : Machine σ).next s = some m') :
    m'.Reads := by
  obtain ⟨hr, hframes⟩ := hm
  cases bindings with
  | cons b more =>
    cases h
    exact ⟨trivial, List.forall_mem_cons.2 ⟨hr, hframes⟩⟩
  | nil =>
    cases h
    refine reads_settle ?_ (List.forall_mem_cons.2 ⟨?_, hframes⟩) _
    · exact fun _ => trivial
    · trivial

theorem Reads.next_text {t : Text} {frames : List Frame} {run : Run σ}
    (hm : Reads ⟨.text t, frames, run⟩)
    (h : (⟨.text t, frames, run⟩ : Machine σ).next s = some m') : m'.Reads := by
  obtain ⟨-, hframes⟩ := hm
  cases frames with
  | nil => cases h
  | cons f frames =>
    obtain ⟨hf, hrest⟩ := List.forall_mem_cons.1 hframes
    cases f with
    | symbol levels r =>
      cases h
      refine reads_settle ?_ hrest _
      exact fun _ => trivial
    | _ =>
      cases h
      exact ⟨hf, hrest⟩

/-- A step works on what was read. -/
theorem Reads.next (hm : m.Reads) (h : m.next s = some m') : m'.Reads := by
  obtain ⟨focus, frames, run⟩ := m
  cases focus with
  | rule levels rule =>
    rcases next_rule_cases h with ⟨-, rfl⟩ | ⟨-, -, fewer, -, rfl⟩ | ⟨-, -, rfl⟩
    · exact ⟨trivial, hm.frames⟩
    · exact ⟨allRead_parse rule, hm.frames⟩
    · refine reads_settle ?_ hm.frames _
      exact fun _ => trivial
  | parts levels before nodes => exact hm.next_parts h
  | bindings levels bindings r => exact hm.next_bindings h
  | text t => exact hm.next_text h
  | failure e => cases h

/-- What is offered next is for the symbol of a reference that was read. -/
theorem Reads.exists_reference (hm : m.Reads) {o : Offer} (ho : m.offer? = some o) :
    ∃ r : Reference, r.IsRead ∧ r.symbol = o.symbol := by
  obtain ⟨focus, frames, run⟩ := m
  cases focus with
  | bindings levels bindings r =>
    cases bindings with
    | cons b more => cases ho
    | nil =>
      simp only [offer?, Option.ite_none_left_eq_some, Option.map_eq_some_iff] at ho
      obtain ⟨-, candidates, -, rfl⟩ := ho
      exact ⟨r, hm.focus, rfl⟩
  | _ => cases ho

/-- From a point where all references were read, every later offer is for the symbol of one that was
read. -/
theorem Reads.walks (hm : m.Reads) (h : Walks s m m') :
    m'.Reads ∧ ∀ o ∈ m'.run.offers, o ∈ m.run.offers ∨
      ∃ r : Reference, r.IsRead ∧ r.symbol = o.symbol := by
  induction h with
  | refl => exact ⟨hm, fun o ho => .inl ho⟩
  | tail _ hstep ih =>
    obtain ⟨hmid, hoffers⟩ := ih
    refine ⟨hmid.next hstep, fun o ho => ?_⟩
    rw [offers_of_next hstep] at ho
    rcases List.mem_append.1 ho with ho | ho
    · exact hoffers o ho
    · exact .inr (hmid.exists_reference (Option.mem_toList.1 ho))

end Machine

/-! ## Whole expansions -/

namespace Grammar

variable {g : Grammar} {pick : Pick σ} {selector : σ} {rule : Text} {o : Offer}

/-- The offers up to a point of an expansion come before all others. -/
theorem offers_prefix_of_walks {m : Machine σ}
    (h : Walks (g.setting pick) (.start g selector rule) m) :
    m.run.offers <+: offersIn (g.flatten pick selector rule).events := by
  obtain ⟨last, hlast, hend, hevents, -⟩ := g.exists_last_point pick selector rule
  rw [hevents]
  exact Machine.offers_prefix (h.deterministic hlast hend)

/-- Every offer to the selector is for the symbol of a reference that was read. -/
theorem exists_reference_of_offer (ho : o ∈ offersIn (g.flatten pick selector rule).events) :
    ∃ r : Reference, r.IsRead ∧ r.symbol = o.symbol := by
  obtain ⟨last, hlast, -, hevents, -⟩ := g.exists_last_point pick selector rule
  have hstart : (Machine.start g selector rule).Reads := ⟨trivial, by simp [Machine.start]⟩
  rw [hevents] at ho
  obtain ⟨-, hoffers⟩ := hstart.walks hlast
  exact (hoffers o ho).resolve_left List.not_mem_nil

/-- What is offered in several expansions is offered in one of them. -/
theorem exists_flatten_of_offer {count : Nat}
    (ho : o ∈ offersIn (g.flattenMany pick selector rule count).events) :
    ∃ (g' : Grammar) (selector' : σ), o ∈ offersIn (g'.flatten pick selector' rule).events := by
  induction count generalizing g selector with
  | zero => cases ho
  | succ count ih =>
    cases hfirst : (g.flatten pick selector rule).result with
    | error e =>
      rw [flattenMany_succ_of_error hfirst] at ho
      exact ⟨g, selector, ho⟩
    | ok text =>
      rw [flattenMany_succ_of_ok hfirst, offersIn_append] at ho
      rcases List.mem_append.1 ho with ho | ho
      · exact ⟨g, selector, ho⟩
      · exact ih ho

/-- Of several expansions the first one makes the first offers. -/
theorem offers_flatten_prefix (g : Grammar) (pick : Pick σ) (selector : σ) (rule : Text)
    (count : Nat) : offersIn (g.flatten pick selector rule).events
      <+: offersIn (g.flattenMany pick selector rule (count + 1)).events := by
  cases hfirst : (g.flatten pick selector rule).result with
  | error e => simp only [flattenMany_succ_of_error hfirst, List.prefix_rfl]
  | ok text =>
    rw [flattenMany_succ_of_ok hfirst, offersIn_append]
    exact List.prefix_append _ _

/-- No symbol that is offered has a delimiter in its name. -/
theorem plain_symbol_of_offer {count : Nat}
    (ho : o ∈ offersIn (g.flattenMany pick selector rule count).events) :
    Plain o.symbol ∧ '.' ∉ o.symbol := by
  obtain ⟨g', selector', ho'⟩ := exists_flatten_of_offer ho
  obtain ⟨r, ⟨inside, hr⟩, hsymbol⟩ := exists_reference_of_offer ho'
  rw [← hsymbol]
  exact plain_names_of_mem_parse hr r.symbol List.mem_cons_self

end Grammar

end TextGrammar
