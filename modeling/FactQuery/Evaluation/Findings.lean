import FactQuery.Evaluation.Basic

/-!
# What filters find

Where no record is in scope, a filter that holds has found the record that makes it so. The findings
of an expression are listed in the order in which they are made; nothing after an error is decided.
-/

namespace FactQuery

/-- A filter's condition, and the index of the record on which the filter holds. -/
structure Finding where
  condition : Expr
  index : Nat
deriving DecidableEq

/-- The index of the first record that is not answered by `false`, if it is answered by `true`. -/
def firstHolding? (verdict : Fact → Verdict) : List Fact → Option Nat
  | [] => none
  | record :: records =>
    match verdict record with
    | .ok true => some 0
    | .ok false => (firstHolding? verdict records).map (· + 1)
    | .error _ => none

/-- The findings of an expression in a scope. -/
def Expr.findings : Expr → Scope → List Finding
  | .group inner, s => inner.findings s
  | .junction _ left right, s =>
    left.findings s ++ match left.eval s with
      | .error _ => []
      | .ok _ => right.findings s
  | .filtered subject condition, s =>
    let verdict record := (condition.eval (s.bind record)).andThen (subject.eval (s.bind record))
    ((firstHolding? verdict s.candidates).map (⟨condition, ·⟩)).toList
  | _, _ => []

end FactQuery
