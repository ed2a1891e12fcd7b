/-!
# Keywords

The symbols and reserved words of the language. A text is a keyword only as a whole: `whereas` is
not one.
-/

namespace FactQuery

/-- The closed set of symbols and reserved words. -/
inductive Keyword where
  | conjunction
  | disjunction
  | filter
  | membership
  | openGroup
  | closeGroup
  | openList
  | closeList
  | equal
  | atLeast
  | atMost
  | greater
  | less
  | notEqual
deriving DecidableEq

namespace Keyword

/-- Every keyword, in the order in which they are looked up. -/
def all : List Keyword :=
  [.conjunction, .disjunction, .filter, .membership, .openGroup, .closeGroup, .openList, .closeList,
   .equal, .atLeast, .atMost, .greater, .less, .notEqual]

def spelling : Keyword → String
  | .conjunction => "&&"
  | .disjunction => "||"
  | .filter => "where"
  | .membership => "in"
  | .openGroup => "("
  | .closeGroup => ")"
  | .openList => "["
  | .closeList => "]"
  | .equal => "=="
  | .atLeast => ">="
  | .atMost => "<="
  | .greater => ">"
  | .less => "<"
  | .notEqual => "!="

/-- The keyword written exactly so. -/
def ofSpelling? (text : String) : Option Keyword := all.find? fun k => k.spelling == text

theorem ofSpelling?_spelling (k : Keyword) : ofSpelling? k.spelling = some k := by
  cases k <;> decide

end Keyword

end FactQuery
