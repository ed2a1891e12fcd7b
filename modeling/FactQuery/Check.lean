import FactQuery.Json.Facts
import FactQuery.Json.Reading
import FactQuery.Query
import FactQuery.Token.Listing

/-!
# Checking an expression against JSON

`check` decides an expression on facts that are given as JSON text, or only reads it. The expression
comes first: what is wrong with it is reported before anything is said about the facts. `listTokens`
and `showTree` show what a text is read as.

What is said about a text that is no JSON is left to its reader, as a parameter (`complaint`).
-/

namespace FactQuery

/-- Why a check has no result. -/
inductive CheckError where
  | query (e : QueryError)
  | invalidJson (complaint : String)
  | invalidFacts (fault : FactsFault)
  | unreadableInput
  | noFacts
deriving DecidableEq

def CheckError.message : CheckError → String
  | .query e => e.message
  | .invalidJson complaint => "Invalid JSON: " ++ complaint
  | .invalidFacts fault => "Invalid facts: " ++ fault.message
  | .unreadableInput => "IO error: stream did not contain valid UTF-8"
  | .noFacts => "No facts provided. Use --facts or pipe JSON to stdin."

/-- The result of a check: the expression is well formed, or it has a verdict. -/
inductive CheckResult where
  | syntaxValid
  | verdict (v : Bool)
deriving DecidableEq

section
variable (complaint : String → String)

/-- The facts that a JSON text holds. -/
def factsOfText (text : String) : Except CheckError Facts :=
  match JsonValue.ofText? text with
  | none => .error (.invalidJson (complaint text))
  | some v => (Facts.ofJson v).mapError .invalidFacts

/-- The facts of a check, if some are given. -/
def givenFacts (text : Option String) : Except CheckError Facts :=
  match text with
  | none => .error .noFacts
  | some text => factsOfText complaint text

/-- Checks an expression: only its syntax, or its verdict on the given facts. -/
def check (source : String) (facts : Option String) (syntaxOnly : Bool) :
    Except CheckError CheckResult :=
  match parse source with
  | .error e => .error (.query e)
  | .ok e =>
    if syntaxOnly then .ok .syntaxValid
    else match givenFacts complaint facts with
      | .error fault => .error fault
      | .ok facts => match e.verdict facts with
        | .error fault => .error (.query (.eval fault))
        | .ok v => .ok (.verdict v)

def checkLog (source : String) (facts : Option String) (syntaxOnly : Bool) : List LogRecord :=
  readingLog source ++ match parse source, givenFacts complaint facts with
    | .ok e, .ok facts => if syntaxOnly then [] else evaluationLog e facts
    | _, _ => []

end

/-- The listing of the tokens of a text. -/
def listTokens (source : String) : Except CheckError String :=
  match lex source with
  | .error e => .error (.query (.lex e))
  | .ok tokens => .ok (listing tokens)

/-- The tree of a text, on one line or indented. -/
def showTree (source : String) (pretty : Bool) : Except CheckError String :=
  match parse source with
  | .error e => .error (.query e)
  | .ok e => .ok (if pretty then e.indented else e.compact)

end FactQuery
