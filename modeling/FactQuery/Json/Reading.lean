import FactQuery.Binary64.Reading
import FactQuery.Json.Basic

/-!
# Reading JSON

The strict grammar: no comments, no trailing commas, no leading zeros, no control characters in
strings, no half of a surrogate pair alone, and only blanks after the value. Arrays and objects nest
at most `maxDepth` deep.

**Readers.** A reader takes at least one character, and says so in its type: what it leaves is
shorter than what it was given. This is why the loops over the elements of an array and over the
characters of a string end. A value is read by recursion on the levels that are left.

**Numbers.** A whole number that fits 64 bits is exact. Any other number is the binary number
nearest to it, which may not be infinite; minus zero is such a number.
-/

namespace FactQuery.JsonValue

/-- How deep arrays and objects may nest. -/
def maxDepth : Nat := 127

/-- A text shorter than `s`. -/
abbrev Shorter (s : List Char) : Type := { rest : List Char // rest.length < s.length }

/-- Takes something off the beginning of a text. -/
abbrev Reader (α : Type) : Type := (s : List Char) → Option (α × Shorter s)

/-- A blank between the tokens of JSON. -/
def isSpace (c : Char) : Bool := c == ' ' || c == '\t' || c == '\n' || c == '\r'

/-- The text without the blanks at its beginning. -/
def skipSpace (s : List Char) : List Char := s.dropWhile isSpace

theorem length_skipSpace_le (s : List Char) : (skipSpace s).length ≤ s.length :=
  (List.dropWhile_suffix isSpace).length_le

theorem length_lt_of_skipSpace {s rest : List Char} {c : Char} (h : skipSpace s = c :: rest) :
    rest.length < s.length := by
  have := length_skipSpace_le s
  rw [h] at this
  exact this

/-! ## Strings -/

def hexDigit? (c : Char) : Option Nat :=
  if c.isDigit then some (c.toNat - '0'.toNat)
  else if 'a' ≤ c ∧ c ≤ 'f' then some (c.toNat - 'a'.toNat + 10)
  else if 'A' ≤ c ∧ c ≤ 'F' then some (c.toNat - 'A'.toNat + 10)
  else none

/-- Four hexadecimal digits: a 16-bit unit. -/
def unit : Reader Nat
  | a :: b :: c :: d :: rest =>
    match hexDigit? a, hexDigit? b, hexDigit? c, hexDigit? d with
    | some a, some b, some c, some d =>
      some (((a * 16 + b) * 16 + c) * 16 + d, ⟨rest, by simp only [List.length_cons]; omega⟩)
    | _, _, _, _ => none
  | _ => none

/-- The character of an escape by units: one unit, or the two of a surrogate pair. -/
def unitEscape : Reader Char := fun s =>
  match unit s with
  | none => none
  | some (high, ⟨rest, h⟩) =>
    if high < 0xD800 ∨ 0xE000 ≤ high then some (Char.ofNat high, ⟨rest, h⟩)
    else if 0xDC00 ≤ high then none
    else match rest with
      | '\\' :: 'u' :: rest => match unit rest with
        | none => none
        | some (low, ⟨rest, h'⟩) =>
          if 0xDC00 ≤ low ∧ low < 0xE000 then
            some (Char.ofNat (0x10000 + (high - 0xD800) * 0x400 + (low - 0xDC00)),
              ⟨rest, by simp only [List.length_cons] at h; omega⟩)
          else none
      | _ => none

/-- The character of an escape, after the backslash. -/
def escape : Reader Char
  | [] => none
  | c :: rest =>
    let plain (d : Char) : Option (Char × Shorter (c :: rest)) := some (d, ⟨rest, by simp⟩)
    match c with
    | '"' => plain '"'
    | '\\' => plain '\\'
    | '/' => plain '/'
    | 'b' => plain '\x08'
    | 'f' => plain '\x0c'
    | 'n' => plain '\n'
    | 'r' => plain '\r'
    | 't' => plain '\t'
    | 'u' => match unitEscape rest with
      | none => none
      | some (d, ⟨rest', h⟩) => some (d, ⟨rest', Nat.lt_succ_of_lt h⟩)
    | _ => none

/-- The characters of a string, after the opening quote and up to the closing one. -/
def characters : Reader (List Char)
  | [] => none
  | c :: rest =>
    if c = '"' then some ([], ⟨rest, by simp⟩)
    else if c = '\\' then
      match escape rest with
      | none => none
      | some (d, ⟨rest', h⟩) => match characters rest' with
        | none => none
        | some (ds, ⟨rest'', h'⟩) =>
          some (d :: ds, ⟨rest'', by simp only [List.length_cons]; omega⟩)
    else if c.toNat < 0x20 then none
    else match characters rest with
      | none => none
      | some (ds, ⟨rest', h⟩) => some (c :: ds, ⟨rest', Nat.lt_succ_of_lt h⟩)
termination_by s => s.length
decreasing_by all_goals simp only [List.length_cons]; omega

/-! ## Numbers -/

/-- A character that occurs in numbers. -/
def isNumberChar (c : Char) : Bool :=
  c.isDigit || c == '-' || c == '+' || c == '.' || c == 'e' || c == 'E'

/-- A binary number that is not infinite. -/
def finite? (x : Binary64) : Option JsonNumber :=
  if h : x.isFinite then some (.binary x h) else none

theorem ofInt_neg_lt_zero {n : Nat} (h : 0 < n ∧ n ≤ integerLimit) :
    Int64.ofInt (-(n : Int)) < 0 := by
  obtain ⟨hpos, hle⟩ := h
  unfold integerLimit at hle
  rw [Int64.lt_iff_toInt_lt, Int64.toInt_ofInt_of_le (by omega) (by omega)]
  exact Int.neg_neg_of_pos (Int.natCast_pos.2 hpos)

/-- A whole number: exact if it fits, else a binary number. -/
def wholeNumber? (negative : Bool) (n : Nat) : Option JsonNumber :=
  if negative then
    if h : 0 < n ∧ n ≤ integerLimit then
      some (.negative (.ofInt (-(n : Int))) (ofInt_neg_lt_zero h))
    else finite? (.ofScientific true ⟨n, 0⟩)
  else if n < UInt64.size then some (.natural (.ofNat n))
  else finite? (.ofScientific false ⟨n, 0⟩)

/-- The part of a number after its whole part: the digits behind a point, and an exponent. -/
def fractionAndExponent? (s : List Char) : Option (List Char × Int) :=
  let (hasPoint, s) := match s with
    | '.' :: s => (true, s)
    | s => (false, s)
  let fraction := if hasPoint then s.takeWhile Char.isDigit else []
  if hasPoint && fraction.isEmpty then none
  else match s.drop fraction.length with
    | [] => some (fraction, 0)
    | mark :: digits =>
      if mark = 'e' ∨ mark = 'E' then (Scientific.exponent? digits).map (fraction, ·) else none

/-- The number that a run of characters spells, if it spells one. -/
def number? (run : List Char) : Option JsonNumber :=
  let (negative, s) := match run with
    | '-' :: s => (true, s)
    | s => (false, s)
  let whole := s.takeWhile Char.isDigit
  if whole.isEmpty || (whole.head? == some '0' && 1 < whole.length) then none
  else match s.dropWhile Char.isDigit with
    | [] => wholeNumber? negative (Nat.ofDigitChars 10 whole 0)
    | rest => match fractionAndExponent? rest with
      | none => none
      | some (fraction, exponent) =>
        finite? (.ofScientific negative
          ⟨Nat.ofDigitChars 10 (whole ++ fraction) 0, exponent - fraction.length⟩)

/-! ## Values -/

/-- The given characters. -/
def word (expected : List Char) (v : JsonValue) (c : Char) (rest : List Char) :
    Option (JsonValue × Shorter (c :: rest)) :=
  if (c :: rest).take expected.length = expected then
    some (v, ⟨rest.drop (expected.length - 1), by
      simp only [List.length_drop, List.length_cons]; omega⟩)
  else none

/-- A scalar that begins with a character. -/
def scalarAt (c : Char) (rest : List Char) : Option (JsonValue × Shorter (c :: rest)) :=
  if c = '"' then
    match characters rest with
    | none => none
    | some (ds, ⟨rest', h⟩) =>
      some (.string (String.ofList ds), ⟨rest', Nat.lt_succ_of_lt h⟩)
  else if c = 'n' then word "null".toList .null c rest
  else if c = 't' then word "true".toList (.boolean true) c rest
  else if c = 'f' then word "false".toList (.boolean false) c rest
  else if isNumberChar c then
    match number? (c :: rest.takeWhile isNumberChar) with
    | none => none
    | some n => some (.number n, ⟨rest.dropWhile isNumberChar,
        Nat.lt_succ_of_le (List.dropWhile_suffix isNumberChar).length_le⟩)
  else none

/-- One or more items between commas, up to the closing character. -/
def items {α : Type} (close : Char) (item : Reader α) : Reader (List α) := fun s =>
  match item s with
  | none => none
  | some (a, ⟨rest, h⟩) =>
    match h' : skipSpace rest with
    | [] => none
    | c :: rest' =>
      have hlt := length_lt_of_skipSpace h'
      if c = close then some ([a], ⟨rest', by omega⟩)
      else if c = ',' then
        match items close item rest' with
        | none => none
        | some (as, ⟨rest'', h''⟩) => some (a :: as, ⟨rest'', by omega⟩)
      else none
termination_by s => s.length

/-- No items, or one or more, up to the closing character. -/
def itemsOrNone {α : Type} (close : Char) (item : Reader α) : Reader (List α) := fun s =>
  match h : skipSpace s with
  | [] => none
  | c :: rest =>
    if c = close then some ([], ⟨rest, length_lt_of_skipSpace h⟩)
    else items close item s

def member (nested : Reader JsonValue) : Reader (String × JsonValue) := fun s =>
  match h : skipSpace s with
  | '"' :: rest => match characters rest with
    | none => none
    | some (name, ⟨rest', h'⟩) => match h'' : skipSpace rest' with
      | ':' :: rest'' => match nested rest'' with
        | none => none
        | some (v, ⟨left, hleft⟩) =>
          have := length_lt_of_skipSpace h
          have := length_lt_of_skipSpace h''
          some ((String.ofList name, v), ⟨left, by omega⟩)
      | _ => none
  | _ => none

/-- A value whose arrays and objects nest at most so deep. -/
def value : Nat → Reader JsonValue
  | 0 => fun s =>
    match h : skipSpace s with
    | [] => none
    | c :: rest => match scalarAt c rest with
      | none => none
      | some (v, ⟨left, hleft⟩) =>
        have := length_lt_of_skipSpace h
        some (v, ⟨left, by simp only [List.length_cons] at hleft; omega⟩)
  | levels + 1 => fun s =>
    match h : skipSpace s with
    | [] => none
    | c :: rest =>
      have := length_lt_of_skipSpace h
      if c = '[' then
        match itemsOrNone ']' (value levels) rest with
        | none => none
        | some (vs, ⟨left, hleft⟩) => some (.array vs, ⟨left, by omega⟩)
      else if c = '\x7b' then
        match itemsOrNone '\x7d' (member (value levels)) rest with
        | none => none
        | some (members, ⟨left, hleft⟩) => some (ofMembers members, ⟨left, by omega⟩)
      else match scalarAt c rest with
        | none => none
        | some (v, ⟨left, hleft⟩) =>
          some (v, ⟨left, by simp only [List.length_cons] at hleft; omega⟩)

/-- The value that a text is. -/
def ofText? (s : String) : Option JsonValue :=
  match value maxDepth s.toList with
  | some (v, ⟨rest, _⟩) => if rest.all isSpace then some v else none
  | none => none

end FactQuery.JsonValue
