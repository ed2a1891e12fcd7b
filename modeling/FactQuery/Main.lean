import FactQuery.Command.Run

/-!
# The command line

Reads the arguments and, if they call for it, the standard input, and leaves the outcome of the run.
Refused arguments leave a usage line and the exit code 2. The filter of the log is taken from the
environment variable `RUST_LOG`, if it is set; a pattern in it is looked for as it stands.
-/

def FactQuery.occurs (pattern text : String) : Bool :=
  pattern == "" || 1 < (text.splitOn pattern).length

/-- What is written when the arguments are refused. -/
def FactQuery.usage : String :=
  "Usage: factql [-v] check <EXPRESSION> [-f <FACTS>] [--syntax-only]\n" ++
  "       factql [-v] tokens <EXPRESSION>\n" ++
  "       factql [-v] ast <EXPRESSION> [-p]\n"

def main (args : List String) : IO UInt32 := do
  match FactQuery.Invocation.ofArguments? args with
  | none =>
    (← IO.getStderr).putStr FactQuery.usage
    return 2
  | some invocation =>
    let stdin ← IO.getStdin
    let isTerminal ← stdin.isTty
    let input ← if invocation.readsInput isTerminal then stdin.readBinToEnd else pure .empty
    let logFilter := (← IO.getEnv "RUST_LOG").map (FactQuery.LogFilter.ofText FactQuery.occurs)
    let outcome := invocation.run (fun _ => "not a JSON value") ⟨input, isTerminal, logFilter⟩
    (← IO.getStderr).putStr outcome.stderr
    (← IO.getStdout).putStr outcome.stdout
    return outcome.code.toUInt32
