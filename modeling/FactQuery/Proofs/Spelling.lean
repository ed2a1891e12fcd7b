import Mathlib
import FactQuery.Grammar.Rule

/-!
# Trees written out

**Spelling** (`Expr.spell`). A tree is written out in order: a literal as its token, a list and a
group between their brackets, and an operator between its operands.

**Levels** (`Expr.opens`). Around a place in a tree, a group opens one level, and so does the right
operand of a junction or a filter.

**Canonical trees** (`Expr.Canonical`). The trees in which the right operand of every junction and
filter takes all that follows. So nothing but a comparison phrase stands on the left of these
operators. Every other tree can be spelled, but is not what its spelling is read as.
-/

namespace FactQuery

/-- A list between its brackets. -/
def Items.spell (items : Items) : List Token :=
  .keyword .openList :: (items.toList.map Token.literal ++ [.keyword .closeList])

namespace Expr

/-- The tokens of a tree, in order. -/
def spell : Expr → List Token
  | .literal l => [.literal l]
  | .list items => items.spell
  | .group inner => .keyword .openGroup :: (inner.spell ++ [.keyword .closeGroup])
  | .junction op left right => joined (.junction op) left.spell right.spell
  | .comparison op left right => joined (.comparison op) left.spell right.spell
  | .membership left right => joined .membership left.spell right.spell
  | .filtered subject condition => joined .filter subject.spell condition.spell
where
  /-- An operator between its operands. -/
  joined (op : BinaryOp) (left right : List Token) : List Token :=
    left ++ .keyword op.keyword :: right

/-- How many levels are opened inside a tree, one within another. -/
def opens : Expr → Nat
  | .literal _ => 0
  | .list _ => 0
  | .group inner => 1 + inner.opens
  | .junction _ left right => max left.opens (1 + right.opens)
  | .comparison _ left right => max left.opens right.opens
  | .membership left right => max left.opens right.opens
  | .filtered subject condition => max subject.opens (1 + condition.opens)

/-- The trees of a phrase in which right operands take all that follows. -/
inductive Canonical : Phrase → Expr → Prop
  | literal (l : Literal) : Canonical .operand (.literal l)
  | list (items : Items) : Canonical .operand (.list items)
  | group {inner : Expr} (h : Canonical .expression inner) : Canonical .operand (.group inner)
  | ofOperand {e : Expr} (h : Canonical .operand e) : Canonical .membership e
  | membership {left right : Expr} (hl : Canonical .operand left)
      (hr : Canonical .operand right) : Canonical .membership (.membership left right)
  | ofMembership {e : Expr} (h : Canonical .membership e) : Canonical .comparison e
  | comparison (op : Comparator) {left : Expr} (hl : Canonical .membership left)
      (l : Literal) : Canonical .comparison (.comparison op left (.literal l))
  | ofComparison {e : Expr} (h : Canonical .comparison e) : Canonical .expression e
  | junction (op : Junction) {left right : Expr} (hl : Canonical .comparison left)
      (hr : Canonical .expression right) : Canonical .expression (.junction op left right)
  | filtered {subject condition : Expr} (hs : Canonical .comparison subject)
      (hc : Canonical .expression condition) :
      Canonical .expression (.filtered subject condition)

/-! ## Spelling -/

@[simp] theorem spell_literal (l : Literal) : (Expr.literal l).spell = [.literal l] := rfl

@[simp] theorem spell_group (inner : Expr) :
    (Expr.group inner).spell =
      .keyword .openGroup :: (inner.spell ++ [.keyword .closeGroup]) := rfl

@[simp] theorem spell_list (items : Items) :
    (Expr.list items).spell =
      .keyword .openList :: .literal items.first ::
        (items.others.map Token.literal ++ [.keyword .closeList]) := rfl

@[simp] theorem spell_binary (op : BinaryOp) (left right : Expr) :
    (Expr.binary op left right).spell = left.spell ++ .keyword op.keyword :: right.spell := by
  cases op <;> rfl

theorem spell_ne_nil (e : Expr) : e.spell ≠ [] := by
  cases e <;> simp [spell, spell.joined, Items.spell]

end Expr

end FactQuery
