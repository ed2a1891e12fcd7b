import FactQuery.Text.Alphanumeric
import FactQuery.Token.Basic

/-!
# Lexemes

**Three classes of characters** make up tokens: symbols, digits with points, and the characters of
words. A digit or a point begins a number, though digits may continue a word.

**Reading one lexeme** (`Lexeme.read`). Blanks are skipped. A symbol is a keyword of two characters
if it can be, else of one. A number is a run of digits and points, a word a run of word characters;
a reserved word has to be the whole run.

**Reading a text** (`scan`). Lexemes are read up to the end or to the first obstacle. Every lexeme
takes at least one character, so the reading ends (`Lexeme.length_lt_of_read`).
-/

namespace FactQuery

def isSymbolChar (c : Char) : Bool :=
  ['&', '|', '<', '>', '=', '!', '(', ')', '[', ']'].contains c

/-- A character of numbers: an ASCII digit or a point. -/
def isNumberChar (c : Char) : Bool := c.isDigit || c == '.'

def isWordChar (c : Char) : Bool := Text.isAlphanumeric c || c == '_' || c == '-'

/-- What can stand in a text in the place of a token. -/
inductive Obstacle where
  | invalidCharacter (c : Char)
  | unknownSymbol (c : Char)
  | invalidNumber (run : String)
deriving DecidableEq

/-- What stands at the beginning of a text, and the text to go on with. An invalid number is passed
over; a character that begins nothing is not. -/
inductive Lexeme where
  | finish
  | token (t : Token) (rest : List Char)
  | obstacle (o : Obstacle) (rest : List Char)

namespace Lexeme

/-- The number that a run of digits and points spells: an integer when it has no point and fits,
else a binary number. -/
def number? (run : List Char) : Option Literal :=
  let n := Nat.ofDigitChars 10 run 0
  if run.all Char.isDigit && n < integerLimit then some (.integer (Int64.ofNat n))
  else (Binary64.ofText? run).map .float

/-- The token that a run of word characters is. -/
def wordToken (run : List Char) : Token :=
  match Keyword.ofSpelling? (String.ofList run) with
  | some k => .keyword k
  | none => .literal (.word (String.ofList run))

/-- The keyword of two characters at the beginning of a text. -/
def longSymbol? : List Char → Option Keyword
  | c :: d :: _ => Keyword.ofSpelling? (String.ofList [c, d])
  | _ => none

/-- The lexeme at a symbol character. -/
def readSymbol (c : Char) (rest : List Char) : Lexeme :=
  match longSymbol? (c :: rest) with
  | some k => .token (.keyword k) (rest.drop 1)
  | none => match Keyword.ofSpelling? (String.ofList [c]) with
    | some k => .token (.keyword k) rest
    | none => .obstacle (.unknownSymbol c) (c :: rest)

/-- The lexeme at a digit or a point. -/
def readNumber (s : List Char) : Lexeme :=
  let run := s.takeWhile isNumberChar
  let rest := s.dropWhile isNumberChar
  match number? run with
  | some l => .token (.literal l) rest
  | none => .obstacle (.invalidNumber (String.ofList run)) rest

/-- The lexeme at a character of a word. -/
def readWord (s : List Char) : Lexeme :=
  .token (wordToken (s.takeWhile isWordChar)) (s.dropWhile isWordChar)

/-- The first lexeme of a text. -/
def read (s : List Char) : Lexeme :=
  match s.dropWhile Text.isBlank with
  | [] => .finish
  | c :: rest =>
    if isSymbolChar c then readSymbol c rest
    else if isNumberChar c then readNumber (c :: rest)
    else if isWordChar c then readWord (c :: rest)
    else .obstacle (.invalidCharacter c) (c :: rest)

/-! ## Progress -/

theorem length_dropWhile_lt {p : Char → Bool} {c : Char} (hc : p c = true) (rest : List Char) :
    ((c :: rest).dropWhile p).length < (c :: rest).length := by
  rw [List.dropWhile_cons_of_pos hc]
  exact Nat.lt_succ_of_le (List.dropWhile_suffix p).length_le

theorem length_lt_of_read {s rest : List Char} {t : Token} (h : read s = .token t rest) :
    rest.length < s.length := by
  have hs : (s.dropWhile Text.isBlank).length ≤ s.length :=
    (List.dropWhile_suffix Text.isBlank).length_le
  unfold read at h
  split at h
  · simp at h
  · rename_i c tail heq
    rw [heq] at hs
    refine Nat.lt_of_lt_of_le ?_ hs
    split at h
    · unfold readSymbol at h
      split at h
      · cases h
        simp only [List.length_drop, List.length_cons]
        omega
      · split at h
        · cases h
          simp
        · simp at h
    · split at h
      · rename_i hc
        unfold readNumber at h
        simp only at h
        split at h
        · cases h
          exact length_dropWhile_lt hc tail
        · simp at h
      · split at h
        · rename_i hc
          cases h
          exact length_dropWhile_lt hc tail
        · simp at h

end Lexeme

/-- The tokens at the beginning of a text, and the obstacle after them with the text to go on with.
-/
def scan (s : List Char) : List Token × Option (Obstacle × List Char) :=
  match h : Lexeme.read s with
  | .finish => ([], none)
  | .obstacle o rest => ([], some (o, rest))
  | .token t rest =>
    have := Lexeme.length_lt_of_read h
    let (tokens, stop) := scan rest
    (t :: tokens, stop)
termination_by s.length

end FactQuery
