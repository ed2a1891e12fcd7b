import FactQuery.Token.Basic

/-!
# The listing of tokens

One line for each token: its category in eight columns, a space and its text.
-/

namespace FactQuery

def Token.line (t : Token) : String :=
  String.ofList (t.category.name.toList.rightpad 8 ' ') ++ " " ++ t.text

/-- The lines of tokens, without a line break at the end. -/
def listing (tokens : List Token) : String := String.intercalate "\n" (tokens.map Token.line)

end FactQuery
