import FactQuery.Token.Keyword
import FactQuery.Binary64.Shortest
import FactQuery.Value

/-!
# Literals and tokens

A literal is a number or a word. A token is a keyword or a literal. A word token may have any word;
only the lexer takes a word that is a keyword's spelling for the keyword.
-/

namespace FactQuery

/-- A number or a word. A word is a field name on the left of an operator and a text elsewhere. -/
inductive Literal where
  | integer (n : Int64)
  | float (x : Binary64)
  | word (w : String)
deriving DecidableEq

namespace Literal

/-- Zero, NaN and the empty word. -/
def isFalsy : Literal → Bool
  | .integer n => n == 0
  | .float x => x.isZero || x == .nan
  | .word w => w == ""

def toValue : Literal → Value
  | .integer n => .integer n
  | .float x => .float x
  | .word w => .text w

def text : Literal → String
  | .integer n => toString n.toInt
  | .float x => String.ofList x.toText
  | .word w => w

end Literal

/-- One of the classes that tokens are listed by. -/
inductive Category where
  | keyword
  | number
  | word
deriving DecidableEq

def Category.name : Category → String
  | .keyword => "Keyword"
  | .number => "Number"
  | .word => "Word"

/-- A keyword or a literal. -/
inductive Token where
  | keyword (k : Keyword)
  | literal (l : Literal)
deriving DecidableEq

namespace Token

def category : Token → Category
  | .keyword _ => .keyword
  | .literal (.integer _) => .number
  | .literal (.float _) => .number
  | .literal (.word _) => .word

/-- The literal that a token is, if it is one. -/
def literal? : Token → Option Literal
  | .keyword _ => none
  | .literal l => some l

def isLiteral (t : Token) : Bool := t.literal?.isSome

def text : Token → String
  | .keyword k => k.spelling
  | .literal l => l.text

end Token

end FactQuery
