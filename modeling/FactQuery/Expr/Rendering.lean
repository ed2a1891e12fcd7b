import FactQuery.Expr.Basic

/-!
# The text of a tree

A tree is written with the operator first: `(&& (== a 1) (in b [2 3]))`. On one line (`compact`) the
operands follow after spaces. Indented (`indented`) each operand stands on a line of its own, two
spaces deeper than its operator, unless all operands are leaves.
-/

namespace FactQuery

/-- The literals of a list between brackets. -/
def Items.text (items : Items) : String :=
  "[" ++ String.intercalate " " (items.toList.map Literal.text) ++ "]"

namespace Expr

/-- The tree on one line. -/
def compact : Expr → String
  | .literal l => l.text
  | .list items => items.text
  | .group inner => "(group " ++ inner.compact ++ ")"
  | .junction op left right => applied (.junction op) left.compact right.compact
  | .comparison op left right => applied (.comparison op) left.compact right.compact
  | .membership left right => applied .membership left.compact right.compact
  | .filtered subject condition => applied .filter subject.compact condition.compact
where
  /-- An operator and its operands on one line. -/
  applied (op : BinaryOp) (left right : String) : String :=
    "(" ++ op.spelling ++ " " ++ left ++ " " ++ right ++ ")"

/-- A new line at the given depth. -/
def newLine (depth : Nat) : String := String.ofList ('\n' :: List.replicate (2 * depth) ' ')

/-- An operator with its operands, on one line or on lines of their own. -/
def layOut (depth : Nat) (head : String) (oneLine : Bool) (operands : List String) : String :=
  let separator := if oneLine then " " else newLine (depth + 1)
  "(" ++ head ++ String.join (operands.map (separator ++ ·)) ++ ")"

/-- The tree with one operand on a line, where the tree itself begins at the given depth. -/
def indentedAt (depth : Nat) : Expr → String
  | .literal l => l.text
  | .list items => items.text
  | .group inner => layOut depth "group" inner.isLeaf [inner.indentedAt (depth + 1)]
  | .junction op left right => binaryAt (.junction op) left right
      (left.indentedAt (depth + 1)) (right.indentedAt (depth + 1))
  | .comparison op left right => binaryAt (.comparison op) left right
      (left.indentedAt (depth + 1)) (right.indentedAt (depth + 1))
  | .membership left right => binaryAt .membership left right
      (left.indentedAt (depth + 1)) (right.indentedAt (depth + 1))
  | .filtered subject condition => binaryAt .filter subject condition
      (subject.indentedAt (depth + 1)) (condition.indentedAt (depth + 1))
where
  /-- An operator with its two operands, whose texts are given beside them. -/
  binaryAt (op : BinaryOp) (left right : Expr) (leftText rightText : String) : String :=
    layOut depth op.spelling (left.isLeaf && right.isLeaf) [leftText, rightText]

/-- The tree with one operand on a line. -/
def indented (e : Expr) : String := e.indentedAt 0

end Expr

end FactQuery
