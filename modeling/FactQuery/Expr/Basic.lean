import FactQuery.Expr.Operator
import FactQuery.Token.Basic

/-!
# Expressions

The tree of an expression. The type is wider than the language: any expression may stand on either
side of any operator, and it is for the evaluation to refuse what has no meaning.
-/

namespace FactQuery

/-- The literals of a list, of which there is at least one. -/
structure Items where
  first : Literal
  others : List Literal
deriving DecidableEq

namespace Items

def toList (items : Items) : List Literal := items.first :: items.others

/-- Whether some literal is loosely equal to a value. -/
def contains (items : Items) (value : Value) : Bool :=
  items.toList.any fun l => value.looseEq l.toValue

end Items

/-- An expression. In `filtered subject condition` the condition is what follows `where`. -/
inductive Expr where
  | literal (l : Literal)
  | list (items : Items)
  | group (inner : Expr)
  | junction (op : Junction) (left right : Expr)
  | comparison (op : Comparator) (left right : Expr)
  | membership (left right : Expr)
  | filtered (subject condition : Expr)
deriving DecidableEq

namespace Expr

/-- The expression that an operator makes of two. -/
def binary (op : BinaryOp) (left right : Expr) : Expr :=
  match op with
  | .junction op => .junction op left right
  | .comparison op => .comparison op left right
  | .membership => .membership left right
  | .filter => .filtered left right

/-- A literal or a list. -/
def isLeaf : Expr → Bool
  | .literal _ | .list _ => true
  | _ => false

end Expr

end FactQuery
