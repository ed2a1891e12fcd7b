import FactQuery.Grammar.Basic

/-!
# Cursors

A cursor is a token sequence with an index, which stays between zero and the length. It moves by one
token at a time, and a move beyond an end leaves it where it is.

**Reading from a cursor** (`read`). A phrase is read from where the cursor stands. After an error
the cursor stands on the offending token. After success it stands on the last token of the phrase,
or one past it for the phrases whose follow token is for the reader to look at
(`Phrase.stopsAfter`).

**An optional operator** (`operator`) stands behind the cursor's token. If it is not there, the
cursor may be moved back by the one token it was moved on for the look.
-/

namespace FactQuery

/-- A place in a token sequence: at a token, or at the end. -/
structure Cursor where
  tokens : List Token
  index : Nat
  index_le : index ≤ tokens.length

namespace Cursor

/-- The cursor at the first token. -/
def ofTokens (tokens : List Token) : Cursor := ⟨tokens, 0, Nat.zero_le _⟩

/-- The cursor moved to an index, or to the end. -/
def moveTo (c : Cursor) (index : Nat) : Cursor :=
  ⟨c.tokens, min index c.tokens.length, Nat.min_le_right ..⟩

def next (c : Cursor) : Cursor := c.moveTo (c.index + 1)

def back (c : Cursor) : Cursor := c.moveTo (c.index - 1)

/-- Behind the last token. -/
def isAtEnd (c : Cursor) : Bool := c.index == c.tokens.length

/-- The token at the cursor, if it is not at the end. -/
def current? (c : Cursor) : Option Token := c.tokens[c.index]?

/-- The tokens from the cursor on. -/
def input (c : Cursor) : Input := ⟨c.index, c.tokens.drop c.index⟩

end Cursor

/-- Whether a reader of the phrase is left behind its last token, and not on it. -/
def Phrase.stopsAfter : Phrase → Bool
  | .complete | .expression | .clause => true
  | .junction | .comparison | .membership | .operand | .literal => false

namespace Cursor

def read (phrase : Phrase) (c : Cursor) : Except ParseError Expr × Cursor :=
  let x := phrase.rule maxNesting c.input
  match x.result with
  | .error e => (.error e, c.moveTo x.stop.offset)
  | .ok e => (.ok e, c.moveTo (if phrase.stopsAfter then x.stop.offset else x.stop.offset - 1))

/-- Joins `left` with what follows an operator among the given keywords, if one stands behind the
cursor. If none does, `left` comes back alone, and with `restore` the cursor is moved back. -/
def operator (keywords : List Keyword) (left : Expr) (right : Phrase) (restore : Bool)
    (c : Cursor) : Except ParseError Expr × Cursor :=
  match Rule.operator? keywords c.next.current? with
  | some op =>
    let (result, stop) := c.next.next.read right
    (result.map (.binary op left), stop)
  | none => (.ok left, if restore then c.next.back else c.next)

end Cursor

end FactQuery
