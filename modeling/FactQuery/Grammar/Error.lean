import FactQuery.Token.Basic

/-!
# Errors of the grammar

What a rule of the grammar expected and what it found in its place. The reading stops at the token
that was found.
-/

namespace FactQuery

/-- An expression opens at most this many levels: one for itself and one for every group and every
right operand of `&&`, `||` and `where` around a place. -/
def maxNesting : Nat := 128

/-- Where a literal may stand. -/
inductive LiteralPlace where
  | operand
  | list
  | comparison
deriving DecidableEq

/-- Why tokens are no expression. What was found is `none` at the end of the tokens. -/
inductive ParseError where
  | expectedLiteral (place : LiteralPlace) (found : Option Token)
  | expectedKeyword (expected : Keyword) (found : Option Token)
  | unexpectedToken (found : Token)
  | tooDeep
deriving DecidableEq

def LiteralPlace.description : LiteralPlace → String
  | .operand => "a literal, '[' or '('"
  | .list => "a list value"
  | .comparison => "a literal"

/-- A token in quotes, or the end. -/
def describeFound : Option Token → String
  | some t => "'" ++ t.text ++ "'"
  | none => "end of input"

def ParseError.message : ParseError → String
  | .expectedLiteral place found =>
    "Expected " ++ place.description ++ ", found " ++ describeFound found
  | .expectedKeyword expected found =>
    "Expected '" ++ expected.spelling ++ "', found " ++ describeFound found
  | .unexpectedToken found =>
    "Unexpected " ++ describeFound (some found) ++ " after complete expression"
  | .tooDeep => "Expression nests deeper than " ++ toString maxNesting ++ " levels"

end FactQuery
