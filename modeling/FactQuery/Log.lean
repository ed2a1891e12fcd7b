import FactQuery.Evaluation.Findings
import FactQuery.Grammar.Basic
import FactQuery.Token.Lexer

/-!
# The log

What is recorded while an expression is read and decided: the tokens and the steps of the grammar in
full detail, and the findings and the verdict in less. Records stand in the order of the work, and
work that is not reached leaves none.
-/

namespace FactQuery

/-- What is being done when something is recorded. -/
inductive Stage where
  | lexing
  | parsing
  | evaluation
deriving DecidableEq

/-- How much detail a record is. -/
inductive Detail where
  | debug
  | trace
deriving DecidableEq

namespace Stage

def detail : Stage → Detail
  | .lexing => .trace
  | .parsing => .trace
  | .evaluation => .debug

/-- The name under which a stage keeps its log. -/
def target : Stage → String
  | .lexing => "factql::lexer"
  | .parsing => "factql::parser"
  | .evaluation => "factql::evaluator"

end Stage

def Detail.name : Detail → String
  | .debug => "DEBUG"
  | .trace => "TRACE"

/-- One record of the log. -/
structure LogRecord where
  stage : Stage
  text : String
deriving DecidableEq

def LogRecord.line (r : LogRecord) : String :=
  "[" ++ r.stage.detail.name ++ " " ++ r.stage.target ++ "] " ++ r.text

def Token.logRecord (t : Token) : LogRecord :=
  ⟨.lexing, "lexed " ++ t.category.name ++ " '" ++ t.text ++ "'"⟩

def Step.logRecord (step : Step) : LogRecord := ⟨.parsing, step.text⟩

def Finding.logRecord (f : Finding) : LogRecord :=
  ⟨.evaluation, "where '" ++ f.condition.compact ++ "' satisfied by record " ++ toString f.index⟩

/-- The log of splitting a text: every token before the first obstacle. -/
def lexingLog (source : String) : List LogRecord := (scan source.toList).1.map Token.logRecord

/-- The log of reading a text as an expression. -/
def readingLog (source : String) : List LogRecord :=
  lexingLog source ++ match lex source with
    | .error _ => []
    | .ok tokens => (Expr.reading tokens).steps.map Step.logRecord

/-- The log of deciding an expression: its findings, and the verdict if there is one. -/
def evaluationLog (e : Expr) (facts : Facts) : List LogRecord :=
  (e.findings (.ofFacts facts)).map Finding.logRecord ++ match e.verdict facts with
    | .error _ => []
    | .ok v => [⟨.evaluation, "'" ++ e.compact ++ "' against " ++ toString facts.length ++
        " fact(s): " ++ toString v⟩]

end FactQuery
