import FactQuery.Token.Adjacency

/-!
# From text to tokens

`tokenize` splits a whole text, `lex` also checks which tokens stand together. A `Lexer` does it one
token at a time and can be asked again after an error: an invalid number has been passed over, any
other obstacle is met again.
-/

namespace FactQuery

/-- The error at an obstacle, which stands before the last `left` characters of the text. -/
def Obstacle.error (o : Obstacle) (source : String) (left : Nat) : LexError :=
  ⟨o.fault (source.length - left), source⟩

/-- The tokens of a text. -/
def tokenize (source : String) : Except LexError (List Token) :=
  match scan source.toList with
  | (tokens, none) => .ok tokens
  | (_, some (o, rest)) => .error (o.error source rest.length)

/-- The tokens of a text, where they may stand together. -/
def lex (source : String) : Except LexError (List Token) :=
  match tokenize source with
  | .error e => .error e
  | .ok tokens => match checkAdjacency tokens source with
    | .error e => .error e
    | .ok _ => .ok tokens

/-- A text and the part of it that has not been read. -/
structure Lexer where
  source : String
  rest : List Char

namespace Lexer

def ofSource (source : String) : Lexer := ⟨source, source.toList⟩

/-- The next token, or `none` at the end, and the lexer to go on with. -/
def next (lexer : Lexer) : Except LexError (Option Token) × Lexer :=
  match Lexeme.read lexer.rest with
  | .finish => (.ok none, { lexer with rest := [] })
  | .token t rest => (.ok (some t), { lexer with rest })
  | .obstacle o rest => (.error (o.error lexer.source rest.length), { lexer with rest })

/-- The results of asking `n` times in a row. -/
def steps : Nat → Lexer → List (Except LexError (Option Token))
  | 0, _ => []
  | n + 1, lexer => (lexer.next).1 :: steps n (lexer.next).2

end Lexer

end FactQuery
