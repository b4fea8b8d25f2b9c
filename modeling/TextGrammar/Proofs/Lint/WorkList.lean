import TextGrammar.Proofs.Lint.Derivation
import Mathlib.Logic.Function.Iterate
import Mathlib.Logic.Relation

/-!
# Finding symbols by loops

The symbols that a start leads to can be searched for with a list of names that wait to be followed:
the first one is taken, and unless it was followed before, what it refers to is put at the end. The
symbols that can finish can be found by passing over the table again and again, adding each symbol
as soon as one of its candidates allows it, until a pass adds nothing. Both loops end on every
table, and they find the sets that a lint works with, whatever the order in which names are put on
the list.

## Main definitions

* `Search`, `Search.Step` — names that wait and names that were followed, and one turn of the loop.
* `Search.Sound` — what every turn of a search from a start keeps.
* `finishingPass`, `passes` — one pass over a table, and some of them.

## Main results

* `Search.wellFounded_step`, `Search.exists_end` — a search ends, however it goes on.
* `Search.Sound.mem_seen_iff` — what was followed when nothing waits any more.
* `passes_length_succ` — a pass adds nothing after as many passes as there are symbols.
* `mem_passes_iff` — what was added when a pass adds nothing.
-/

namespace TextGrammar

/-! ## Searching -/

/-- A search: the names that wait to be followed, and those that were. -/
structure Search where
  /-- The names that wait, the next one first. -/
  waiting : List Text
  seen : List Text

namespace Search

/-- One turn of a search through a graph. -/
inductive Step (graph : List Dependency) : Search → Search → Prop
  /-- A name that was followed before is passed over. -/
  | skip {name : Text} {waiting seen : List Text} (hseen : name ∈ seen) :
      Step graph ⟨name :: waiting, seen⟩ ⟨waiting, seen⟩
  /-- Another name is followed: those that it refers to and that were not followed before, in some
  order and perhaps more than once, are put at the end. -/
  | follow {name : Text} {waiting seen more : List Text} (hseen : name ∉ seen)
      (hmore : ∀ x, x ∈ more ↔ isReferredTo graph [name] x = true ∧ x ∉ name :: seen) :
      Step graph ⟨name :: waiting, seen⟩ ⟨waiting ++ more, name :: seen⟩

/-- The names of a graph that were not followed yet. -/
def unseen (graph : List Dependency) (s : Search) : List Text :=
  (graph.map (·.name)).filter (!s.seen.contains ·)

section Ending

variable {graph : List Dependency} {s s' : Search}

theorem not_isReferredTo_of_not_mem {name : Text} (h : name ∉ graph.map (·.name)) (x : Text) :
    ¬ isReferredTo graph [name] x = true := by
  intro hx
  obtain ⟨d, hd, hname⟩ := List.any_eq_true.1 hx
  have heq : d.name = name := by simpa using (Bool.and_eq_true_iff.1 hname).1
  exact h (heq ▸ List.mem_map_of_mem hd)

/-- A turn leaves fewer names that were not followed, or as many of them and fewer that wait. -/
theorem Step.decreases (h : Step graph s s') :
    (s'.unseen graph).length < (s.unseen graph).length ∨
      (s'.unseen graph).length = (s.unseen graph).length ∧ s'.waiting.length < s.waiting.length := by
  cases h with
  | skip hseen => exact .inr ⟨rfl, Nat.lt_succ_self _⟩
  | @follow name waiting seen more hseen hmore =>
    have hunseen : unseen graph ⟨waiting ++ more, name :: seen⟩
        = (unseen graph ⟨name :: waiting, seen⟩).filter (· ≠ name) := by
      simp only [unseen, List.filter_filter]
      congr 1
      funext x
      simp
    rw [hunseen]
    by_cases hname : name ∈ graph.map (·.name)
    · left
      refine List.length_filter_lt_length_iff_exists.2 ⟨name, ?_, by simp⟩
      exact List.mem_filter.2 ⟨hname, by simpa using hseen⟩
    · -- A name outside the graph refers to nothing, so nothing is put on the list.
      right
      have hnil : more = [] := List.eq_nil_iff_forall_not_mem.2 fun x hx =>
        not_isReferredTo_of_not_mem hname x ((hmore x).1 hx).1
      refine ⟨congrArg List.length (List.filter_eq_self.2 fun x hx => ?_), by simp [hnil]⟩
      have hx : x ∈ graph.map (·.name) := (List.mem_filter.1 hx).1
      exact decide_eq_true fun heq => hname (heq ▸ hx)

/-- No search goes on for ever. -/
theorem wellFounded_step (graph : List Dependency) :
    WellFounded fun s' s => Step graph s s' :=
  Subrelation.wf (fun h => Prod.lex_def.2 h.decreases)
    (InvImage.wf (fun s : Search => ((s.unseen graph).length, s.waiting.length))
      (Prod.lex Nat.lt_wfRel Nat.lt_wfRel).wf)

/-- A search goes on as long as a name waits. -/
theorem exists_step (graph : List Dependency) (name : Text) (waiting seen : List Text) :
    ∃ s', Step graph ⟨name :: waiting, seen⟩ s' := by
  by_cases hseen : name ∈ seen
  · exact ⟨_, .skip hseen⟩
  · let more := (graph.flatMap (·.candidates)).flatten.filter
      fun x => isReferredTo graph [name] x && decide (x ∉ name :: seen)
    have hmore : ∀ x, x ∈ more ↔ isReferredTo graph [name] x = true ∧ x ∉ name :: seen := by
      intro x
      rw [List.mem_filter, Bool.and_eq_true, decide_eq_true_iff, and_iff_right_iff_imp]
      rintro ⟨hx, -⟩
      obtain ⟨d, hd, hrefs⟩ := List.any_eq_true.1 hx
      obtain ⟨refs, hmem, hin⟩ := List.any_eq_true.1 (Bool.and_eq_true_iff.1 hrefs).2
      exact List.mem_flatten.2 ⟨refs, List.mem_flatMap.2 ⟨d, hd, hmem⟩, by simpa using hin⟩
    exact ⟨_, .follow hseen hmore⟩

/-- Every search comes to an end where nothing waits. -/
theorem exists_end (graph : List Dependency) (s : Search) :
    ∃ seen, Relation.ReflTransGen (Step graph) s ⟨[], seen⟩ := by
  induction s using (wellFounded_step graph).induction with
  | _ s ih =>
    obtain ⟨waiting, seen⟩ := s
    cases waiting with
    | nil => exact ⟨seen, .refl⟩
    | cons name waiting =>
      obtain ⟨s', hstep⟩ := exists_step graph name waiting seen
      obtain ⟨last, hlast⟩ := ih s' hstep
      exact ⟨last, .head hstep hlast⟩

end Ending

/-- What every turn of a search from a start through a table keeps. -/
structure Sound (table : RuleTable) (start : Text) (s : Search) : Prop where
  /-- Only names that the start leads to are put on the list. -/
  reached : ∀ x, x ∈ s.waiting ∨ x ∈ s.seen → x ∈ reachableFrom (dependencies table) start
  /-- The start waits or was followed. -/
  begun : start ∈ s.waiting ∨ start ∈ s.seen
  /-- What a followed name refers to waits or was followed. -/
  followed : ∀ x ∈ s.seen, ∀ y, isReferredTo (dependencies table) [x] y = true →
    y ∈ s.waiting ∨ y ∈ s.seen

namespace Sound

variable {table : RuleTable} {origin start x : Text} {s s' : Search}

theorem begin (hin : table.contains origin = true) :
    Sound table (Text.lower origin) ⟨[Text.lower origin], []⟩ where
  reached := by
    intro x hx
    obtain rfl : x = Text.lower origin := by simpa using hx
    exact Region.mem_reachable hin
  begun := .inl List.mem_cons_self
  followed := by
    intro x hx
    cases hx

/-- What a reached name refers to is reached. -/
theorem mem_reachableFrom_of_isReferredTo (hx : x ∈ reachableFrom (dependencies table) start)
    {y : Text} (hy : isReferredTo (dependencies table) [x] y = true) :
    y ∈ reachableFrom (dependencies table) start := by
  obtain ⟨e, he, hname, rule, hrule, hmem⟩ := (isReferredTo_dependencies_iff table [x] y).1 hy
  refine (mem_reachableFrom_iff table start).2 ⟨mem_names_of_mem_symbolsOf hmem, .inr ?_⟩
  exact ⟨e, he, List.mem_singleton.1 hname ▸ hx, rule, hrule, hmem⟩

/-- One turn. -/
theorem step (h : Sound table start s) (hstep : Step (dependencies table) s s') :
    Sound table start s' := by
  cases hstep with
  | @skip name waiting seen hseen =>
    have hmoved : ∀ x, x ∈ name :: waiting ∨ x ∈ seen → x ∈ waiting ∨ x ∈ seen := by
      rintro x (hx | hx)
      · rcases List.mem_cons.1 hx with rfl | hx
        · exact .inr hseen
        · exact .inl hx
      · exact .inr hx
    exact ⟨fun x hx => h.reached x (hx.imp_left (List.mem_cons_of_mem name)),
      hmoved _ h.begun, fun x hx y hy => hmoved y (h.followed x hx y hy)⟩
  | @follow name waiting seen more hseen hmore =>
    have hname := h.reached name (.inl List.mem_cons_self)
    have hmoved : ∀ x, x ∈ name :: waiting ∨ x ∈ seen → x ∈ waiting ++ more ∨ x ∈ name :: seen := by
      rintro x (hx | hx)
      · rcases List.mem_cons.1 hx with rfl | hx
        · exact .inr List.mem_cons_self
        · exact .inl (List.mem_append_left more hx)
      · exact .inr (List.mem_cons_of_mem name hx)
    refine ⟨fun x hx => ?_, hmoved _ h.begun, fun x hx y hy => ?_⟩
    · rcases hx with hx | hx
      · rcases List.mem_append.1 hx with hx | hx
        · exact h.reached x (.inl (List.mem_cons_of_mem name hx))
        · exact mem_reachableFrom_of_isReferredTo hname ((hmore x).1 hx).1
      · rcases List.mem_cons.1 hx with rfl | hx
        · exact hname
        · exact h.reached x (.inr hx)
    · rcases List.mem_cons.1 hx with rfl | hx
      · by_cases hy' : y ∈ x :: seen
        · exact .inr hy'
        · exact .inl (List.mem_append_right waiting ((hmore y).2 ⟨hy, hy'⟩))
      · exact hmoved y (h.followed x hx y hy)

/-- Any number of turns. -/
theorem steps (h : Sound table start s)
    (hsteps : Relation.ReflTransGen (Step (dependencies table)) s s') : Sound table start s' := by
  induction hsteps with
  | refl => exact h
  | tail _ hstep ih => exact ih.step hstep

/-- When nothing waits any more, the names that were followed are those that are reached. -/
theorem mem_seen_iff (h : Sound table start s) (hend : s.waiting = []) :
    x ∈ s.seen ↔ x ∈ reachableFrom (dependencies table) start := by
  have hseen : ∀ x, x ∈ s.waiting ∨ x ∈ s.seen → x ∈ s.seen := by
    rintro x (hx | hx)
    · rw [hend] at hx
      cases hx
    · exact hx
  refine ⟨fun hx => h.reached x (.inr hx), fun hx => ?_⟩
  refine forall_mem_leastSet (p := (· ∈ s.seen)) (fun known n _ hknown hrule => ?_) x hx
  rw [Bool.or_eq_true, decide_eq_true_iff, isReferredTo_dependencies_iff] at hrule
  rcases hrule with rfl | ⟨e, he, hname, rule, hrule, hn⟩
  · exact hseen n h.begun
  · refine hseen n (h.followed _ (hknown _ hname) n ?_)
    exact (isReferredTo_dependencies_iff table _ n).2
      ⟨e, he, List.mem_singleton_self _, rule, hrule, hn⟩

end Sound

end Search

/-! ## Passing over a table -/

/-- A symbol is added as soon as it has no candidates or one that refers to added symbols only. -/
def addFinishing (done : List Text) (d : Dependency) : List Text :=
  if done.contains d.name then done
  else if d.candidates.isEmpty || d.candidates.any (·.all done.contains) then done ++ [d.name]
  else done

/-- One pass over the symbols of a table, each of which sees what was added before it. -/
def finishingPass (graph : List Dependency) (done : List Text) : List Text :=
  graph.foldl addFinishing done

section Passes

variable {graph : List Dependency} {done : List Text} {d : Dependency}

/-- A symbol is added, or it was added before, or nothing allows it yet. -/
theorem addFinishing_cases (done : List Text) (d : Dependency) :
    addFinishing done d = done ∧ (d.Finishes done → d.name ∈ done) ∨
      addFinishing done d = done ++ [d.name] ∧ d.Finishes done ∧ d.name ∉ done := by
  have hiff : (d.candidates.isEmpty || d.candidates.any (·.all done.contains)) = true
      ↔ d.Finishes done := by
    simp [Dependency.Finishes, List.subset_def]
  unfold addFinishing
  split
  · rename_i hin
    exact .inl ⟨rfl, fun _ => by simpa using hin⟩
  · rename_i hout
    split
    · rename_i hrule
      exact .inr ⟨rfl, hiff.1 hrule, by simpa using hout⟩
    · rename_i hrule
      exact .inl ⟨rfl, fun hfin => absurd (hiff.2 hfin) hrule⟩

theorem subset_addFinishing (done : List Text) (d : Dependency) : done ⊆ addFinishing done d := by
  rcases addFinishing_cases done d with ⟨heq, -⟩ | ⟨heq, -⟩
  · rw [heq]; exact List.Subset.refl _
  · rw [heq]; exact List.subset_append_left _ _

/-- A pass keeps what was added before. -/
theorem subset_finishingPass (graph : List Dependency) (done : List Text) :
    done ⊆ finishingPass graph done := by
  induction graph generalizing done with
  | nil => exact List.Subset.refl _
  | cons d graph ih => exact List.Subset.trans (subset_addFinishing done d) (ih _)

/-- A pass adds every symbol that finishes when those do that were added before. -/
theorem name_mem_finishingPass (hd : d ∈ graph) (h : d.Finishes done) :
    d.name ∈ finishingPass graph done := by
  induction graph generalizing done with
  | nil => cases hd
  | cons first graph ih =>
    rcases List.mem_cons.1 hd with rfl | hd
    · refine subset_finishingPass graph _ ?_
      rcases addFinishing_cases done d with ⟨heq, hin⟩ | ⟨heq, -⟩
      · rw [heq]; exact hin h
      · rw [heq]; simp
    · exact ih hd (h.mono (subset_addFinishing done first))

/-- A pass stays inside every set that holds the symbols which finish when its symbols do. -/
theorem finishingPass_subset {names : List Text}
    (hclosed : ∀ d ∈ graph, d.Finishes names → d.name ∈ names) (hdone : done ⊆ names) :
    finishingPass graph done ⊆ names := by
  induction graph generalizing done with
  | nil => exact hdone
  | cons d graph ih =>
    obtain ⟨hfirst, hrest⟩ := List.forall_mem_cons.1 hclosed
    refine ih hrest ?_
    rcases addFinishing_cases done d with ⟨heq, -⟩ | ⟨heq, hfin, -⟩
    · rw [heq]; exact hdone
    · rw [heq]
      exact List.append_subset.2 ⟨hdone, by simpa using hfirst (hfin.mono hdone)⟩

/-- A pass adds nothing when nothing is left to add. -/
theorem finishingPass_eq_self (hclosed : ∀ d ∈ graph, d.Finishes done → d.name ∈ done) :
    finishingPass graph done = done := by
  induction graph with
  | nil => rfl
  | cons d graph ih =>
    obtain ⟨hfirst, hrest⟩ := List.forall_mem_cons.1 hclosed
    rcases addFinishing_cases done d with ⟨heq, -⟩ | ⟨-, hfin, hout⟩
    · exact (congrArg (finishingPass graph) heq).trans (ih hrest)
    · exact absurd (hfirst hfin) hout

/-- The symbols that were added in some passes. -/
def passes (graph : List Dependency) (n : Nat) : List Text := (finishingPass graph)^[n] []

theorem passes_succ (graph : List Dependency) (n : Nat) :
    passes graph (n + 1) = finishingPass graph (passes graph n) :=
  Function.iterate_succ_apply' _ _ _

/-- The symbols that finish when those do that can finish are among them. -/
theorem name_mem_finishing (hd : d ∈ graph) (h : d.Finishes (finishing graph)) :
    d.name ∈ finishing graph :=
  (monotoneRule_finishesGiven graph).mem_leastSet_iff.2
    ⟨List.mem_map_of_mem hd, (finishesGiven_iff graph _ _).2 ⟨d, hd, rfl, h⟩⟩

/-- Passes add only symbols that can finish. -/
theorem passes_subset_finishing (graph : List Dependency) (n : Nat) :
    passes graph n ⊆ finishing graph := by
  induction n with
  | zero => exact List.nil_subset _
  | succ n ih =>
    rw [passes_succ]
    exact finishingPass_subset (fun d hd => name_mem_finishing hd) ih

/-- A pass adds no fewer symbols than a round. -/
theorem leastSetWithin_subset_passes (graph : List Dependency) (n : Nat) :
    leastSetWithin (graph.map (·.name)) (finishesGiven graph) n ⊆ passes graph n := by
  induction n with
  | zero => exact List.nil_subset _
  | succ n ih =>
    intro x hx
    obtain ⟨d, hd, rfl, hfin⟩ := (finishesGiven_iff graph _ x).1 (List.mem_filter.1 hx).2
    rw [passes_succ]
    exact name_mem_finishingPass hd (hfin.mono ih)

/-- After as many passes as there are symbols all symbols are added that can finish. -/
theorem finishing_subset_passes (graph : List Dependency) :
    finishing graph ⊆ passes graph graph.length := by
  rw [finishing, leastSet, List.length_map]
  exact leastSetWithin_subset_passes graph graph.length

/-- A pass adds nothing after as many passes as there are symbols. -/
theorem passes_length_succ (graph : List Dependency) :
    passes graph (graph.length + 1) = passes graph graph.length := by
  rw [passes_succ]
  refine finishingPass_eq_self fun d hd hfin => finishing_subset_passes graph ?_
  exact name_mem_finishing hd (hfin.mono (passes_subset_finishing graph _))

/-- When a pass adds nothing, the symbols are added that can finish. -/
theorem mem_passes_iff {n : Nat} (h : passes graph (n + 1) = passes graph n) {x : Text} :
    x ∈ passes graph n ↔ x ∈ finishing graph := by
  refine ⟨fun hx => passes_subset_finishing graph n hx, fun hx => ?_⟩
  refine forall_mem_leastSet (p := (· ∈ passes graph n)) (fun known y _ hknown hrule => ?_) x hx
  obtain ⟨d, hd, rfl, hfin⟩ := (finishesGiven_iff graph known y).1 hrule
  rw [← h, passes_succ]
  exact name_mem_finishingPass hd (hfin.mono hknown)

end Passes

end TextGrammar
