import FactQuery.Proofs.Scoping

/-!
# Well-typed conditions

Whether an expression has a verdict or an error is a matter of its tree, and not of the fields and
values of the facts.

**Well-typed trees** (`Expr.WellTyped`). A comparison needs a field on its left and a literal on its
right, a membership test a literal on its left and a list on its right. Junctions, groups and
filters pass the demand on to what they are made of, and nothing else is a condition.

**The first fault.** What stands in condition position is listed from left to right
(`Expr.conditions`). Without filters every condition is decided, so the error is that of the first
condition in the list that is not well typed.

**Theorem (`verdict_wellTyped`).** Well-typed trees have a verdict on all facts. A tree without
filters that is not well typed has one error on all facts, that of its first fault.

The order in which `eval` looks at things could hide an error in two ways: a comparison could answer
`false` for want of a field before its operands are checked, and a junction could leave out its
right side. Neither happens, because operands are checked before any field is looked up and a
junction decides both sides. A filter does leave out its subject, which is why filters are excluded.
-/

namespace FactQuery

namespace Expr

/-! ## Well-typed trees -/

/-- The trees that are conditions. -/
inductive WellTyped : Expr → Prop
  | group {inner : Expr} (h : WellTyped inner) : WellTyped (.group inner)
  | junction (op : Junction) {left right : Expr} (hl : WellTyped left) (hr : WellTyped right) :
      WellTyped (.junction op left right)
  | comparison (op : Comparator) (field : String) (expected : Literal) :
      WellTyped (.comparison op (.literal (.word field)) (.literal expected))
  | membership (l : Literal) (items : Items) : WellTyped (.membership (.literal l) (.list items))
  | filtered {subject condition : Expr} (hs : WellTyped subject) (hc : WellTyped condition) :
      WellTyped (.filtered subject condition)

/-- What stands in condition position, from left to right. -/
def conditions : Expr → List Expr
  | .group inner => inner.conditions
  | .junction _ left right => left.conditions ++ right.conditions
  | .filtered subject condition => subject.conditions ++ condition.conditions
  | e => [e]

/-- Whether there is a filter anywhere in a tree. -/
def hasFilter : Expr → Bool
  | .literal _ | .list _ => false
  | .group inner => inner.hasFilter
  | .junction _ left right => left.hasFilter || right.hasFilter
  | .comparison _ left right => left.hasFilter || right.hasFilter
  | .membership left right => left.hasFilter || right.hasFilter
  | .filtered _ _ => true

/-- What is wrong with a single condition, if anything is. -/
def fault? : Expr → Option EvalError
  | .literal l => some (.notACondition (.literal l))
  | .list items => some (.notACondition (.list items))
  | e => e.misfit?

theorem WellTyped.of_mem_conditions {e c : Expr} (h : WellTyped e) (hc : c ∈ e.conditions) :
    WellTyped c := by
  induction h with
  | group _ ih => exact ih hc
  | junction op _ _ ihl ihr =>
    rcases List.mem_append.1 hc with hc | hc
    · exact ihl hc
    · exact ihr hc
  | comparison op field expected =>
    obtain rfl := List.mem_singleton.1 hc
    exact .comparison op field expected
  | membership l items =>
    obtain rfl := List.mem_singleton.1 hc
    exact .membership l items
  | filtered _ _ ihs ihc =>
    rcases List.mem_append.1 hc with hc | hc
    · exact ihs hc
    · exact ihc hc

/-! ## Well-typed trees have verdicts -/

end Expr

theorem Verdict.andThen_isOk {first second : Verdict} (h : ∃ v, first = .ok v)
    (h' : ∃ v, second = .ok v) : ∃ v, first.andThen second = .ok v := by
  obtain ⟨v, rfl⟩ := h
  cases v with
  | false => exact ⟨false, rfl⟩
  | true => exact h'

theorem firstDecisive_isOk {verdict : Fact → Verdict} (h : ∀ record, ∃ v, verdict record = .ok v)
    (records : List Fact) : ∃ v, firstDecisive verdict records = .ok v := by
  induction records with
  | nil => exact ⟨false, rfl⟩
  | cons record records ih =>
    obtain ⟨v, hv⟩ := h record
    rw [firstDecisive, hv]
    cases v with
    | false => exact ih
    | true => exact ⟨true, rfl⟩

namespace Expr

/-- **Well-typed trees have a verdict**, in every scope. -/
theorem WellTyped.eval_isOk {e : Expr} (h : WellTyped e) (s : Scope) : ∃ v, e.eval s = .ok v := by
  induction h generalizing s with
  | group _ ih => exact ih s
  | junction op _ _ ihl ihr =>
    obtain ⟨a, ha⟩ := ihl s
    obtain ⟨b, hb⟩ := ihr s
    refine ⟨op.apply a b, ?_⟩
    simp only [eval, ha, hb]
  | comparison op field expected =>
    simp only [eval, evalComparison, field?, comparand?]
    cases s.get? field with
    | none => exact ⟨false, rfl⟩
    | some actual =>
      by_cases hfalsy : expected.isFalsy
      · exact ⟨false, if_pos hfalsy⟩
      · exact ⟨op.apply actual expected.toValue, if_neg hfalsy⟩
  | membership l items =>
    cases l with
    | word field => exact ⟨(s.get? field).any items.contains, rfl⟩
    | integer n => exact ⟨false, rfl⟩
    | float x => exact ⟨false, rfl⟩
  | filtered _ _ ihs ihc =>
    rw [eval]
    -- A record in scope is asked alone, and else the candidates in turn.
    by_cases hs : s.record.isSome
    · rw [if_pos hs]
      exact Verdict.andThen_isOk (ihc s) (ihs s)
    · rw [if_neg hs]
      exact firstDecisive_isOk (fun record =>
        Verdict.andThen_isOk (ihc (s.bind record)) (ihs (s.bind record))) _

/-! ## Faults -/

theorem wellTyped_comparison_of_misfit? {op : Comparator} {left right : Expr}
    (h : (comparison op left right).misfit? = none) : WellTyped (.comparison op left right) := by
  simp only [misfit?] at h
  split at h
  · exact .comparison op _ _
  · cases h
  · cases h

theorem wellTyped_membership_of_misfit? {left right : Expr}
    (h : (membership left right).misfit? = none) : WellTyped (.membership left right) := by
  simp only [misfit?] at h
  split at h
  · exact .membership _ _
  · cases h
  · cases h

/-- The operands of a comparison are checked before the field is looked up. -/
theorem eval_comparison_of_misfit? {op : Comparator} {left right : Expr} {fault : EvalError}
    (h : (comparison op left right).misfit? = some fault) (s : Scope) :
    (comparison op left right).eval s = .error fault := by
  simp only [misfit?] at h
  split at h
  · cases h
  · next hright =>
    cases h
    cases right with
    | literal l => exact absurd rfl (hright l)
    | _ => rfl
  · next hleft _ =>
    cases h
    cases left with
    | literal l => cases l with
      | word w => exact absurd rfl (hleft w)
      | _ => rfl
    | _ => rfl

/-- The operands of a membership test are checked before the field is looked up. -/
theorem eval_membership_of_misfit? {left right : Expr} {fault : EvalError}
    (h : (membership left right).misfit? = some fault) (s : Scope) :
    (membership left right).eval s = .error fault := by
  simp only [misfit?] at h
  split at h
  · cases h
  · next hleft =>
    cases h
    cases left with
    | literal l => exact absurd rfl (hleft l)
    | _ => rfl
  · next hright _ =>
    cases h
    cases right with
    | list items => exact absurd rfl (hright items)
    | _ => rfl

/-- The condition is the first one of a tree that is not well typed, and this is its fault. -/
def FirstFault (e c : Expr) (fault : EvalError) : Prop :=
  ∃ before after, e.conditions = before ++ c :: after ∧ (∀ b ∈ before, WellTyped b) ∧
    ¬ WellTyped c ∧ c.fault? = some fault

section
variable {left right c : Expr} {fault : EvalError}

theorem firstFault_self {e : Expr} (hc : e.conditions = [e]) (h : ¬ WellTyped e)
    (hfault : e.fault? = some fault) : e.FirstFault e fault :=
  ⟨[], [], hc, nofun, h, hfault⟩

/-- The first fault of the left side comes before anything on the right side. -/
theorem FirstFault.junction_left (h : left.FirstFault c fault) (op : Junction) (right : Expr) :
    (Expr.junction op left right).FirstFault c fault := by
  obtain ⟨before, after, hleft, hbefore, hc, hfault⟩ := h
  refine ⟨before, after ++ right.conditions, ?_, hbefore, hc, hfault⟩
  rw [conditions, hleft, List.append_assoc, List.cons_append]

/-- Where the left side is well typed, the first fault is on the right side. -/
theorem FirstFault.junction_right (h : right.FirstFault c fault) (op : Junction)
    (hl : WellTyped left) : (Expr.junction op left right).FirstFault c fault := by
  obtain ⟨before, after, hright, hbefore, hc, hfault⟩ := h
  refine ⟨left.conditions ++ before, after, ?_, ?_, hc, hfault⟩
  · rw [conditions, hright, List.append_assoc]
  · intro b hb
    rcases List.mem_append.1 hb with hb | hb
    · exact hl.of_mem_conditions hb
    · exact hbefore b hb

end

/-- **Without filters the first fault decides**, in every scope. -/
theorem exists_firstFault {e : Expr} (hfilter : e.hasFilter = false) (h : ¬ WellTyped e) :
    ∃ c fault, e.FirstFault c fault ∧ ∀ s, e.eval s = .error fault := by
  induction e with
  | literal l => exact ⟨_, _, firstFault_self rfl h rfl, fun _ => rfl⟩
  | list items => exact ⟨_, _, firstFault_self rfl h rfl, fun _ => rfl⟩
  | group inner ih => exact ih hfilter fun hinner => h (.group hinner)
  | junction op left right ihl ihr =>
    obtain ⟨hfl, hfr⟩ := Bool.or_eq_false_iff.1 hfilter
    -- Both sides are decided, and the error of the left one comes first.
    by_cases hl : WellTyped left
    · obtain ⟨c, fault, hfirst, heval⟩ := ihr hfr fun hr => h (.junction op hl hr)
      refine ⟨c, fault, hfirst.junction_right op hl, fun s => ?_⟩
      obtain ⟨a, ha⟩ := hl.eval_isOk s
      simp only [eval, ha, heval s]
    · obtain ⟨c, fault, hfirst, heval⟩ := ihl hfl hl
      refine ⟨c, fault, hfirst.junction_left op right, fun s => ?_⟩
      simp only [eval, heval s]
  | comparison op left right =>
    cases hm : (comparison op left right).misfit? with
    | none => exact absurd (wellTyped_comparison_of_misfit? hm) h
    | some fault => exact ⟨_, fault, firstFault_self rfl h hm, eval_comparison_of_misfit? hm⟩
  | membership left right =>
    cases hm : (membership left right).misfit? with
    | none => exact absurd (wellTyped_membership_of_misfit? hm) h
    | some fault => exact ⟨_, fault, firstFault_self rfl h hm, eval_membership_of_misfit? hm⟩
  | filtered subject condition => cases hfilter

end Expr

/-- **Errors are a matter of the tree.** A well-typed tree has a verdict on all facts. A tree
without filters that is not well typed has the fault of its first ill-typed condition on all facts.
-/
theorem verdict_wellTyped :
    (∀ e : Expr, e.WellTyped → ∀ facts, ∃ v, e.verdict facts = .ok v) ∧
    ∀ e : Expr, e.hasFilter = false → ¬ e.WellTyped →
      ∃ c fault, e.FirstFault c fault ∧ ∀ facts, e.verdict facts = .error fault := by
  refine ⟨fun e h facts => h.eval_isOk (.ofFacts facts), fun e hfilter h => ?_⟩
  obtain ⟨c, fault, hfirst, heval⟩ := Expr.exists_firstFault hfilter h
  exact ⟨c, fault, hfirst, fun facts => heval (.ofFacts facts)⟩

/-- A number on the left of a comparison is an error even where the field of an earlier comparison
is missing, and it comes before the list behind it. -/
theorem verdict_wellTyped_junction :
    let field : Expr := .comparison .equal (.literal (.word "a")) (.literal (.integer 1))
    let number : Expr := .comparison .less (.literal (.integer 2)) (.literal (.integer 3))
    let bare : Expr := .list ⟨.integer 4, []⟩
    let e : Expr := .junction .and field (.junction .or number bare)
    field.WellTyped ∧ (∃ v, field.verdict (.single ⟨[]⟩) = .ok v) ∧
      e.hasFilter = false ∧ ¬ e.WellTyped ∧
      ∀ facts, e.verdict facts =
        .error (.notAField (.comparison .less) (.literal (.integer 2))) := by
  intro field number bare e
  have hfield : field.WellTyped := .comparison .equal "a" (.integer 1)
  have hbare : ¬ Expr.WellTyped (.list ⟨.integer 4, []⟩) := nofun
  have he : ¬ e.WellTyped := by
    intro h
    exact hbare (h.of_mem_conditions (by simp [e, bare, field, number, Expr.conditions]))
  obtain ⟨hok, herror⟩ := verdict_wellTyped
  obtain ⟨c, fault, -, hverdict⟩ := herror e rfl he
  have hfault : Except.error fault = e.verdict (.many []) := (hverdict (.many [])).symm
  refine ⟨hfield, hok field hfield (.single ⟨[]⟩), rfl, he, fun facts => ?_⟩
  rw [hverdict facts, hfault]
  rfl

end FactQuery
