import TextGrammar.Rule.Scan

/-!
# Reading a rule

Reading never fails: a hash or bracket that nothing closes makes the rest of the rule literal text,
and of two hashes in a row the first is literal and the second is read again. Nothing is lost, see
`flatMap_raw_parse`.

## Main definitions

* `parse` — the parts of a rule, in order.
* `hasSyntax` — whether a rule holds a hash or an opening bracket at all.
-/

namespace TextGrammar

/-- The parts of a rule, in order. -/
def parse (rule : Text) : List Node :=
  match rule with
  | [] => []
  | c :: t =>
    if c = '#' then
      match _h : closeReference 0 t with
      | none => [.text (c :: t)]
      | some (body, rest) =>
        if body = [] then Node.literal c (parse t)
        else .reference (Reference.ofBody body) :: parse rest
    else if c = '[' then
      match _h : closeBinding 0 t with
      | none => [.text (c :: t)]
      | some (inner, rest) => .binding (Binding.ofInner inner) :: parse rest
    else Node.literal c (parse t)
termination_by rule.length
decreasing_by
  · simp
  · have := length_lt_of_closeReference _h
    simp
    omega
  · have := length_lt_of_closeBinding _h
    simp
    omega
  · simp

/-- Whether a rule holds a hash or an opening bracket. -/
def hasSyntax (rule : Text) : Bool := rule.any fun c => c = '#' || c = '['

@[simp] theorem parse_nil : parse [] = [] := by
  unfold parse
  rfl

/-- What the parts are written with, one after the other, is the rule. -/
theorem flatMap_raw_parse (rule : Text) : (parse rule).flatMap Node.raw = rule := by
  fun_induction parse rule with
  | case1 => rfl
  | case2 => simp
  | case3 t rest h ih => simp [ih]
  | case4 t body rest h hb ih => simp [ih, eq_of_closeReference h]
  | case5 => simp
  | case6 t inner rest h hc ih => simp [ih, eq_of_closeBinding h, Binding.raw]
  | case7 c t hc hc' ih => simp [ih]

end TextGrammar
