import FactQuery.Expr.Rendering
import FactQuery.Fact

/-!
# Deciding an expression

**Scope.** Fields are looked up in one record. A single fact is in scope from the start; of a
sequence no record is, until a filter binds one.

**Verdicts** (`Expr.eval`). A junction decides both sides, so an error on either side is never
hidden. A comparison or a membership test is false where no record is in scope, or the record lacks
the field; a comparison with a falsy literal is false, too. What has no meaning is an error before
anything is looked up.

**Filters.** With a record in scope, `subject where condition` asks for both on that record, the
condition first. Otherwise the records of the sequence are bound in turn, up to the first one that
does not answer `false`.
-/

namespace FactQuery

/-- Why an expression has no verdict. -/
inductive EvalError where
  | notACondition (e : Expr)
  | notAField (op : BinaryOp) (found : Expr)
  | notAList (found : Expr)
deriving DecidableEq

/-- True, false, or an error. -/
abbrev Verdict := Except EvalError Bool

/-- The facts, and the record in which fields are looked up. -/
structure Scope where
  facts : Facts
  record : Option Fact
deriving DecidableEq

namespace Scope

/-- Only a single fact is in scope from the start. -/
def ofFacts (facts : Facts) : Scope :=
  match facts with
  | .single fact => ⟨facts, some fact⟩
  | .many _ => ⟨facts, none⟩

def bind (s : Scope) (record : Fact) : Scope := { s with record := some record }

def get? (s : Scope) (field : String) : Option Value := s.record.bind (·.get? field)

/-- The records that a filter may bind. -/
def candidates (s : Scope) : List Fact :=
  match s.record, s.facts with
  | none, .many records => records
  | _, _ => []

end Scope

/-- The second verdict, if the first one is true. -/
@[macro_inline] def Verdict.andThen (first second : Verdict) : Verdict :=
  match first with
  | .ok true => second
  | v => v

/-- The first verdict that is not `false`. -/
def firstDecisive (verdict : Fact → Verdict) : List Fact → Verdict
  | [] => .ok false
  | record :: records =>
    match verdict record with
    | .ok false => firstDecisive verdict records
    | v => v

namespace Expr

/-- The field that stands on the left of an operator. -/
def field? (op : BinaryOp) : Expr → Except EvalError String
  | .literal (.word w) => .ok w
  | e => .error (.notAField op e)

/-- The literal on the right of a comparator. -/
def comparand? : Expr → Except EvalError Literal
  | .literal l => .ok l
  | e => .error (.notACondition e)

def evalComparison (op : Comparator) (left right : Expr) (s : Scope) : Verdict :=
  match left.field? (.comparison op) with
  | .error e => .error e
  | .ok field => match right.comparand? with
    | .error e => .error e
    | .ok expected => match s.get? field with
      | none => .ok false
      | some actual =>
        if expected.isFalsy then .ok false else .ok (op.apply actual expected.toValue)

/-- The verdict of a membership test. A number on the left is a member of nothing. -/
def evalMembership (left right : Expr) (s : Scope) : Verdict :=
  match right with
  | .list items => match left with
    | .literal (.word field) => .ok ((s.get? field).any items.contains)
    | .literal _ => .ok false
    | e => .error (.notAField .membership e)
  | e => .error (.notAList e)

/-- The verdict of an expression in a scope. -/
def eval : Expr → Scope → Verdict
  | .literal l, _ => .error (.notACondition (.literal l))
  | .list items, _ => .error (.notACondition (.list items))
  | .group inner, s => inner.eval s
  | .junction op left right, s =>
    match left.eval s with
    | .error e => .error e
    | .ok a => match right.eval s with
      | .error e => .error e
      | .ok b => .ok (op.apply a b)
  | .comparison op left right, s => evalComparison op left right s
  | .membership left right, s => evalMembership left right s
  | .filtered subject condition, s =>
    if s.record.isSome then (condition.eval s).andThen (subject.eval s)
    else firstDecisive
      (fun record => (condition.eval (s.bind record)).andThen (subject.eval (s.bind record)))
      s.candidates

def verdict (e : Expr) (facts : Facts) : Verdict := e.eval (.ofFacts facts)

/-- A field that has no value in scope stands in no relation, and none stands in one to a falsy
literal. -/
theorem eval_comparison_field (op : Comparator) (field : String) (l : Literal) (s : Scope) :
    (comparison op (.literal (.word field)) (.literal l)).eval s =
      .ok ((s.get? field).any fun actual => !l.isFalsy && op.apply actual l.toValue) := by
  simp only [eval, evalComparison, field?, comparand?]
  cases s.get? field with
  | none => rfl
  | some actual => cases l.isFalsy <;> rfl

end Expr

def EvalError.message : EvalError → String
  | .notACondition e => "Cannot evaluate '" ++ e.compact ++ "' as a condition"
  | .notAField op found =>
    "Expected a field name on the left of '" ++ op.spelling ++ "', found '" ++ found.compact ++ "'"
  | .notAList found => "Expected a list on the right of 'in', found '" ++ found.compact ++ "'"

end FactQuery
