/-!
# Arguments

A command line is a subcommand with one expression and options. Each subcommand has options of its
own; `-v` goes anywhere and may be repeated.

**Forms.** A long option is `--name`, a value follows after `=` or as the next argument. Short
options may be run together, and a value may follow at once, after `=` or as the next argument. A
value of its own may be a lone `-` and does not otherwise begin with one. After `--` every argument
is an expression.

**Counting.** If `-v` stands after the subcommand, only those count; else those before it do.

What breaks these rules is refused as a whole.
-/

namespace FactQuery

/-- What the command is asked to do. -/
inductive Request where
  | check (expression : String) (facts : Option String) (syntaxOnly : Bool)
  | tokens (expression : String)
  | tree (expression : String) (pretty : Bool)
deriving DecidableEq

/-- An accepted command line. -/
inductive Invocation where
  | version
  | request (verbosity : Nat) (r : Request)
deriving DecidableEq

inductive Subcommand where
  | check
  | tokens
  | tree
deriving DecidableEq

/-- The options of subcommands. -/
inductive Flag where
  | verbose
  | facts
  | syntaxOnly
  | pretty
deriving DecidableEq

def Subcommand.ofName? (name : String) : Option Subcommand :=
  if name = "check" then some .check
  else if name = "tokens" then some .tokens
  else if name = "ast" then some .tree
  else none

namespace Flag

/-- Only the facts are a value. -/
def takesValue (flag : Flag) : Bool := flag == .facts

def ofLong? (subcommand : Subcommand) (name : String) : Option Flag :=
  if name = "verbose" then some .verbose
  else match subcommand with
    | .check => if name = "facts" then some .facts
      else if name = "syntax-only" then some .syntaxOnly else none
    | .tokens => none
    | .tree => if name = "pretty" then some .pretty else none

def ofShort? (subcommand : Subcommand) (letter : Char) : Option Flag :=
  if letter = 'v' then some .verbose
  else match subcommand with
    | .check => if letter = 'f' then some .facts else none
    | .tokens => none
    | .tree => if letter = 'p' then some .pretty else none

end Flag

/-- What an argument contributes: an option with its value, if it takes one, or an expression. -/
inductive Item where
  | flag (f : Flag)
  | value (f : Flag) (v : String)
  | expression (e : String)
deriving DecidableEq

namespace Item

/-- The items of an argument, and the option that waits for the next argument as its value. -/
abbrev Group := List Item × Option Flag

/-- The items of short options that are run together. -/
def ofLetters? (subcommand : Subcommand) : List Char → Option Group
  | [] => some ([], none)
  | letter :: letters =>
    match Flag.ofShort? subcommand letter with
    | none => none
    | some f =>
      if f.takesValue then
        match letters with
        | [] => some ([], some f)
        | '=' :: v => some ([.value f (String.ofList v)], none)
        | v => some ([.value f (String.ofList v)], none)
      else (ofLetters? subcommand letters).map fun (items, waiting) => (.flag f :: items, waiting)

/-- The item of a long option, after its dashes. -/
def ofLong? (subcommand : Subcommand) (s : List Char) : Option Group :=
  let name := String.ofList (s.takeWhile (· != '='))
  match Flag.ofLong? subcommand name, s.dropWhile (· != '=') with
  | none, _ => none
  | some f, [] => if f.takesValue then some ([], some f) else some ([.flag f], none)
  | some f, _ :: v => if f.takesValue then some ([.value f (String.ofList v)], none) else none

/-- The items of one argument. -/
def ofArgument? (subcommand : Subcommand) (arg : String) : Option Group :=
  match arg.toList with
  | '-' :: '-' :: name => ofLong? subcommand name
  | '-' :: letter :: letters => ofLetters? subcommand (letter :: letters)
  | _ => some ([.expression arg], none)

/-- Whether an argument can be the value of the option before it. -/
def isValue (arg : String) : Bool :=
  match arg.toList with
  | '-' :: _ :: _ => false
  | _ => true

/-- The items of the arguments after a subcommand. -/
def ofArguments? (subcommand : Subcommand) : List String → Option (List Item)
  | [] => some []
  | arg :: args =>
    if arg = "--" then some (args.map .expression)
    else match ofArgument? subcommand arg with
      | none => none
      | some (items, none) => (ofArguments? subcommand args).map (items ++ ·)
      | some (items, some f) => match args with
        | [] => none
        | v :: args =>
          if isValue v then (ofArguments? subcommand args).map (items ++ .value f v :: ·) else none

def expression? : Item → Option String
  | .expression e => some e
  | _ => none

/-- The value that an item gives to an option. -/
def value? (f : Flag) : Item → Option String
  | .value g v => if f = g then some v else none
  | _ => none

end Item

namespace Invocation

/-- The request of a subcommand's items: one expression, and no option twice but `verbose`. -/
def ofItems? (subcommand : Subcommand) (verbosity : Nat) (items : List Item) : Option Invocation :=
  let verbose := items.count (.flag .verbose)
  let verbosity := if verbose = 0 then verbosity else verbose
  match items.filterMap Item.expression?, items.filterMap (Item.value? .facts) with
  | [e], facts =>
    let syntaxOnly := items.count (.flag .syntaxOnly)
    let pretty := items.count (.flag .pretty)
    if 1 < facts.length ∨ 1 < syntaxOnly ∨ 1 < pretty then none
    else some (.request verbosity (match subcommand with
      | .check => .check e facts.head? (syntaxOnly == 1)
      | .tokens => .tokens e
      | .tree => .tree e (pretty == 1)))
  | _, _ => none

/-- Reads short options that are run together before the subcommand: how many times `-v`, up to a
`-V`, which is `none`. -/
def leadingLetters? (verbosity : Nat) : List Char → Option (Option Nat)
  | [] => some (some verbosity)
  | 'v' :: letters => leadingLetters? (verbosity + 1) letters
  | 'V' :: _ => some none
  | _ => none

/-- Reads the arguments, of which `verbosity` have asked for more detail before. -/
def ofArgumentsFrom? (verbosity : Nat) : List String → Option Invocation
  | [] => none
  | arg :: args =>
    if arg = "--version" then some .version
    else if arg = "--verbose" then ofArgumentsFrom? (verbosity + 1) args
    else match arg.toList with
      | '-' :: letter :: letters => match leadingLetters? verbosity (letter :: letters) with
        | none => none
        | some none => some .version
        | some (some verbosity) => ofArgumentsFrom? verbosity args
      | _ => match Subcommand.ofName? arg with
        | none => none
        | some subcommand =>
          (Item.ofArguments? subcommand args).bind (ofItems? subcommand verbosity)

/-- The invocation that arguments spell, if they are not refused. -/
def ofArguments? (args : List String) : Option Invocation := ofArgumentsFrom? 0 args

end Invocation

end FactQuery
