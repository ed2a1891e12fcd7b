import FactQuery.Check
import FactQuery.Command.Arguments
import FactQuery.Command.LogFilter

/-!
# Running the command

The result goes to the standard output and an error to the standard error, each with a line break
after it, and the exit code tells them apart: 0 for a result, be the verdict true or false, and 1
for an error.

**Facts.** A check reads its facts from the input when it is not given them and needs them, unless
the input is a terminal. It does so before anything else, so that an unreadable input is an error
whatever the expression is.

**The log** goes to the standard error before anything else is written there. Its filter is the one
that the environment sets. Only if there is none, the detail that the arguments ask for counts.
-/

namespace FactQuery

/-- What a run leaves behind. -/
structure Outcome where
  code : UInt8
  stdout : String
  stderr : String
deriving DecidableEq

/-- What a run finds besides its arguments. -/
structure Environment where
  input : ByteArray
  isTerminal : Bool
  logFilter : Option LogFilter

def Environment.filter (env : Environment) (verbosity : Nat) : LogFilter :=
  env.logFilter.getD (.ofVerbosity verbosity)

/-- The outcome of a result, after a log. -/
def Outcome.ofResult (log : String) : Except CheckError String → Outcome
  | .ok text => ⟨0, text ++ "\n", log⟩
  | .error e => ⟨1, "", log ++ e.message ++ "\n"⟩

def CheckResult.text : CheckResult → String
  | .syntaxValid => "Syntax is valid"
  | .verdict v => toString v

namespace Request

def readsInput (isTerminal : Bool) : Request → Bool
  | .check _ none false => !isTerminal
  | _ => false

/-- The facts of a check: those given, those on the input, or none. -/
def factsText (facts : Option String) (syntaxOnly : Bool) (env : Environment) :
    Except CheckError (Option String) :=
  match facts with
  | some text => .ok (some text)
  | none =>
    if !syntaxOnly && !env.isTerminal then
      match String.fromUTF8? env.input with
      | some text => .ok (some text)
      | none => .error .unreadableInput
    else .ok none

/-- The result of a request and its log. -/
def result (complaint : String → String) (env : Environment) :
    Request → Except CheckError String × List LogRecord
  | .check e facts syntaxOnly =>
    match factsText facts syntaxOnly env with
    | .error fault => (.error fault, [])
    | .ok facts => ((FactQuery.check complaint e facts syntaxOnly).map CheckResult.text,
        checkLog complaint e facts syntaxOnly)
  | .tokens e => (listTokens e, lexingLog e)
  | .tree e pretty => (showTree e pretty, readingLog e)

end Request

def Invocation.run (complaint : String → String) (env : Environment) : Invocation → Outcome
  | .version => ⟨0, "factql 0.1.0\n", ""⟩
  | .request verbosity r =>
    let (result, log) := r.result complaint env
    .ofResult ((env.filter verbosity).shownLog log) result

def Invocation.readsInput (isTerminal : Bool) : Invocation → Bool
  | .version => false
  | .request _ r => r.readsInput isTerminal

end FactQuery
