import FactQuery.Grammar.Rule

/-!
# The grammar

```text
complete    := expression end
expression  := clause
clause      := junction (where expression)?
junction    := comparison ((&& | ||) expression)?
comparison  := membership ((== | != | >= | <= | > | <) literal)?
membership  := operand (in operand)?
operand     := literal | [ literal+ ] | ( expression )
```

**Choices.** One token of lookahead decides every choice, and an operator is taken whenever it is
there. So the right operand of `&&`, `||` and `where` extends as far as it can.

**Nesting.** Only `expression` is recursive. It opens a level for itself and refuses to open more
than there are, so that the other rules take the rule for the next level as an argument.

Main definition: `Expr.ofTokens`, which reads a whole token sequence.
-/

namespace FactQuery

namespace Rule

def literal (place : LiteralPlace) : Rule Literal := do
  let found ← look
  match found.bind Token.literal? with
  | some l =>
    skip
    return l
  | none => fail (.expectedLiteral place found)

/-- A keyword that has to be there. -/
def keyword (k : Keyword) : Rule Unit := do
  let found ← look
  if found = some (.keyword k) then skip else fail (.expectedKeyword k found)

/-- The literals at the beginning of a token sequence. -/
def leadingLiterals : List Token → List Literal
  | .literal l :: tokens => l :: leadingLiterals tokens
  | _ => []

/-- All the literals that follow. -/
def literals : Rule (List Literal) := fun i =>
  let found := leadingLiterals i.rest
  ⟨.ok found, ⟨i.offset + found.length, i.rest.drop found.length⟩, []⟩

/-- A list, from its opening bracket on. -/
def list : Rule Expr := do
  note .list
  skip
  let first ← literal .list
  let others ← literals
  keyword .closeList
  return .list ⟨first, others⟩

/-- A group, from its opening parenthesis on. -/
def group (expression : Rule Expr) : Rule Expr := do
  note .group
  skip
  let inner ← expression
  keyword .closeGroup
  return .group inner

/-- A literal, a list or a group. -/
def operand (expression : Rule Expr) : Rule Expr := do
  match ← look with
  | some (.keyword .openList) => list
  | some (.keyword .openGroup) => group expression
  | _ => return .literal (← literal .operand)

/-- A literal on the right of a comparator. -/
def comparand : Rule Expr := do
  return .literal (← literal .comparison)

/-- The operator that a token is, among the given keywords. -/
def operator? (keywords : List Keyword) : Option Token → Option BinaryOp
  | some (.keyword k) => if k ∈ keywords then BinaryOp.ofKeyword? k else none
  | _ => none

/-- An operator among the given keywords and its right operand, if the operator comes next; else the
left operand alone. -/
def optional (keywords : List Keyword) (right : Rule Expr) (left : Expr) : Rule Expr := do
  match operator? keywords (← look) with
  | some op =>
    note (.operator op.keyword)
    skip
    return .binary op left (← right)
  | none => return left

def junctions : List Keyword := [.conjunction, .disjunction]

def comparators : List Keyword := [.equal, .atLeast, .atMost, .greater, .less, .notEqual]

/-- An operand, which may be tested for membership. -/
def membership (expression : Rule Expr) : Rule Expr := do
  note (.enter .membership)
  optional [.membership] (operand expression) (← operand expression)

/-- A membership phrase, which may be compared with a literal. -/
def comparison (expression : Rule Expr) : Rule Expr := do
  note (.enter .comparison)
  optional comparators comparand (← membership expression)

/-- A comparison phrase, which may be joined with an expression. -/
def junction (expression : Rule Expr) : Rule Expr := do
  note (.enter .junction)
  optional junctions expression (← comparison expression)

/-- A junction phrase, which may be filtered by an expression. -/
def clause (expression : Rule Expr) : Rule Expr := do
  note (.enter .clause)
  optional [.filter] expression (← junction expression)

/-- An expression, when so many levels may be opened. -/
def expression : Nat → Rule Expr
  | 0 => do
    note (.enter .expression)
    fail .tooDeep
  | levels + 1 => do
    note (.enter .expression)
    clause (expression levels)

/-- An expression with nothing after it. -/
def complete (levels : Nat) : Rule Expr := do
  let e ← expression levels
  match ← look with
  | none => return e
  | some t => fail (.unexpectedToken t)

end Rule

/-- The rule of a phrase whose expressions may open so many levels. -/
def Phrase.rule (levels : Nat) : Phrase → Rule Expr
  | .complete => .complete levels
  | .expression => .expression levels
  | .clause => .clause (.expression levels)
  | .junction => .junction (.expression levels)
  | .comparison => .comparison (.expression levels)
  | .membership => .membership (.expression levels)
  | .operand => .operand (.expression levels)
  | .literal => .comparand

def Layer.name : Layer → String
  | .expression => "expression"
  | .clause => "where"
  | .junction => "and"
  | .comparison => "comparator"
  | .membership => "in"

/-- What is said about a step. -/
def Step.text : Step → String
  | .enter layer position => layer.name ++ " at " ++ toString position
  | .list position => "list at " ++ toString position
  | .group position => "group at " ++ toString position
  | .operator k position => "operator '" ++ k.spelling ++ "' at " ++ toString position

/-- The reading of a whole token sequence, with its steps. -/
def Expr.reading (tokens : List Token) : Reading Expr := Phrase.complete.rule maxNesting ⟨0, tokens⟩

/-- The expression that a whole token sequence spells. -/
def Expr.ofTokens (tokens : List Token) : Except ParseError Expr := (Expr.reading tokens).result

end FactQuery
