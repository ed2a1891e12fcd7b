import FactQuery.Token.Lexeme

/-!
# Faults of an expression's text

Why a text gives no tokens, or tokens that cannot stand together. An error carries the whole text,
which its message repeats.
-/

namespace FactQuery

/-- What is wrong with a text. Positions count characters. -/
inductive LexFault where
  | invalidCharacter (c : Char) (position : Nat)
  | unknownSymbol (c : Char) (position : Nat)
  | invalidNumber (run : String)
  | illegalCombination (left right : Token)
  | listContent
deriving DecidableEq

/-- A fault and the text it was found in. -/
structure LexError where
  fault : LexFault
  source : String
deriving DecidableEq

/-- An obstacle at a position of a text, as a fault. -/
def Obstacle.fault (position : Nat) : Obstacle → LexFault
  | .invalidCharacter c => .invalidCharacter c position
  | .unknownSymbol c => .unknownSymbol c position
  | .invalidNumber run => .invalidNumber run

def LexFault.message : LexFault → String
  | .invalidCharacter c position => s!"Invalid character: '{c}' at position {position}"
  | .unknownSymbol c position => s!"Unknown symbol '{c}' at position {position}"
  | .invalidNumber run => s!"'{run}' is not a valid number"
  | .illegalCombination left right =>
    "'" ++ left.text ++ " " ++ right.text ++ "' forms an illegal combination outside of a list"
  | .listContent => "Values in a list must be words or numbers"

/-- The message of an error: the fault, then the text. -/
def LexError.message (e : LexError) : String :=
  "ERROR: " ++ e.fault.message ++ "\nCode:\n\t" ++ e.source

end FactQuery
