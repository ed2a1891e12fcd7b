import FactQuery.Token.Keyword
import FactQuery.Value

/-!
# Operators

The keywords that join two expressions fall into four classes: junctions, comparators, membership
and the filter. Each operator has one keyword and each keyword but the brackets one operator.
-/

namespace FactQuery

/-- A boolean connective. -/
inductive Junction where
  | and
  | or
deriving DecidableEq

/-- A comparison of a field with a literal. -/
inductive Comparator where
  | equal
  | notEqual
  | atLeast
  | atMost
  | greater
  | less
deriving DecidableEq

/-- Whatever joins two expressions. -/
inductive BinaryOp where
  | junction (op : Junction)
  | comparison (op : Comparator)
  | membership
  | filter
deriving DecidableEq

/-- The verdict of two joined verdicts. -/
def Junction.apply : Junction → Bool → Bool → Bool
  | .and, a, b => a && b
  | .or, a, b => a || b

/-- Whether a value stands in a relation to another one. The ordering comparisons fail when the two
have no order; `notEqual` is the negation of `equal`. -/
def Comparator.apply (op : Comparator) (actual expected : Value) : Bool :=
  match op with
  | .equal => actual.looseEq expected
  | .notEqual => !actual.looseEq expected
  | .atLeast => match actual.looseCompare expected with
    | some order => order.isGE
    | none => false
  | .atMost => match actual.looseCompare expected with
    | some order => order.isLE
    | none => false
  | .greater => actual.looseCompare expected == some .gt
  | .less => actual.looseCompare expected == some .lt

namespace BinaryOp

/-- The operator of a keyword; brackets have none. -/
def ofKeyword? : Keyword → Option BinaryOp
  | .conjunction => some (.junction .and)
  | .disjunction => some (.junction .or)
  | .equal => some (.comparison .equal)
  | .notEqual => some (.comparison .notEqual)
  | .atLeast => some (.comparison .atLeast)
  | .atMost => some (.comparison .atMost)
  | .greater => some (.comparison .greater)
  | .less => some (.comparison .less)
  | .membership => some .membership
  | .filter => some .filter
  | .openGroup | .closeGroup | .openList | .closeList => none

def keyword : BinaryOp → Keyword
  | .junction .and => .conjunction
  | .junction .or => .disjunction
  | .comparison .equal => .equal
  | .comparison .notEqual => .notEqual
  | .comparison .atLeast => .atLeast
  | .comparison .atMost => .atMost
  | .comparison .greater => .greater
  | .comparison .less => .less
  | .membership => .membership
  | .filter => .filter

def spelling (op : BinaryOp) : String := op.keyword.spelling

theorem ofKeyword?_eq_some_iff {k : Keyword} {op : BinaryOp} :
    ofKeyword? k = some op ↔ k = op.keyword := by
  constructor
  · intro h
    cases k <;> simp only [ofKeyword?, Option.some.injEq, reduceCtorEq] at h <;> subst h <;> rfl
  · rintro rfl
    rcases op with (_ | _) | (_ | _ | _ | _ | _ | _) | _ | _ <;> rfl

end BinaryOp

end FactQuery
