import FactQuery.Log

/-!
# Queries

From the text of an expression to its verdict on facts. An error of any stage ends the query; those
of the grammar and of the evaluation say which they are.
-/

namespace FactQuery

/-- Why a text has no verdict. -/
inductive QueryError where
  | lex (e : LexError)
  | parse (e : ParseError)
  | eval (e : EvalError)
deriving DecidableEq

def QueryError.message : QueryError → String
  | .lex e => e.message
  | .parse e => "Parse error: " ++ e.message
  | .eval e => "Evaluation error: " ++ e.message

/-- The expression that a text spells. -/
def parse (source : String) : Except QueryError Expr :=
  match lex source with
  | .error e => .error (.lex e)
  | .ok tokens => (Expr.ofTokens tokens).mapError .parse

/-- The verdict of a text on facts. -/
def evaluate (source : String) (facts : Facts) : Except QueryError Bool :=
  match parse source with
  | .error e => .error e
  | .ok e => (e.verdict facts).mapError .eval

theorem evaluate_of_parse {source : String} {e : Expr} (h : parse source = .ok e)
    (facts : Facts) : evaluate source facts = (e.verdict facts).mapError .eval := by
  rw [evaluate, h]

def queryLog (source : String) (facts : Facts) : List LogRecord :=
  readingLog source ++ match parse source with
    | .error _ => []
    | .ok e => evaluationLog e facts

end FactQuery
