import FactQuery.Binary64.Basic

/-!
# Reading a binary64 number

The texts that spell a number: an optional sign, then one of the words `inf`, `infinity` and `nan`
in any case, or digits with an optional point and an optional exponent. At least one digit stands on
one side of the point. The number is the one nearest to what is spelled.
-/

namespace FactQuery

/-- Takes an optional sign off a text; `true` for a minus. -/
def takeSign : List Char → Bool × List Char
  | '-' :: s => (true, s)
  | '+' :: s => (false, s)
  | s => (false, s)

namespace Scientific

/-- Digits around an optional point, and what follows them. -/
def takePointed (s : List Char) : Option (Scientific × List Char) :=
  let whole := s.takeWhile Char.isDigit
  let (fraction, rest) := match s.dropWhile Char.isDigit with
    | '.' :: rest => (rest.takeWhile Char.isDigit, rest.dropWhile Char.isDigit)
    | rest => ([], rest)
  let digits := whole ++ fraction
  if digits.isEmpty then none
  else some (⟨Nat.ofDigitChars 10 digits 0, -(fraction.length : Int)⟩, rest)

/-- An exponent after its mark: an optional sign and at least one digit, up to the end. -/
def exponent? (s : List Char) : Option Int :=
  let (negative, digits) := takeSign s
  if digits.isEmpty || !digits.all Char.isDigit then none
  else
    let n : Int := Nat.ofDigitChars 10 digits 0
    some (if negative then -n else n)

/-- A numeral without a sign: digits around an optional point, then an optional exponent. -/
def ofText? (s : List Char) : Option Scientific :=
  match takePointed s with
  | none => none
  | some (x, []) => some x
  | some (x, mark :: rest) =>
    if mark = 'e' ∨ mark = 'E' then
      (exponent? rest).map fun e => { x with exponent := x.exponent + e }
    else none

end Scientific

namespace Binary64

/-- The number that a text spells, if it spells one. -/
def ofText? (s : List Char) : Option Binary64 :=
  let (negative, s) := takeSign s
  let word := String.ofList (s.map Char.toLower)
  if word = "inf" ∨ word = "infinity" then some (infinity negative)
  else if word = "nan" then some .nan
  else (Scientific.ofText? s).map (ofScientific negative)

end Binary64

end FactQuery
