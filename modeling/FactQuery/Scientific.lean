/-!
# Powers of ten

A non-negative number written as a coefficient and a power of ten. This is what a numeral spells,
and what a binary number is shown as: always positional, without an exponent.
-/

namespace FactQuery

def tenPow (n : Nat) : Nat := Nat.pow 10 n

/-- The number `coefficient · 10 ^ exponent`. -/
structure Scientific where
  coefficient : Nat
  exponent : Int
deriving DecidableEq

namespace Scientific

def num (x : Scientific) : Nat := x.coefficient * tenPow x.exponent.toNat

def den (x : Scientific) : Nat := tenPow (-x.exponent).toNat

/-- The digits of a fraction without the zeros at its end. -/
def stripZeros (digits : List Char) : List Char :=
  (digits.reverse.dropWhile (· == '0')).reverse

/-- The number in positional digits: no exponent, no zeros at the end of a fraction, and no point
when there is no fraction. -/
def toText (x : Scientific) : List Char :=
  if 0 ≤ x.exponent then Nat.toDigits 10 x.num
  else
    let places := (-x.exponent).toNat
    let digits := Nat.toDigits 10 x.coefficient
    let digits := List.replicate (places + 1 - digits.length) '0' ++ digits
    let whole := digits.take (digits.length - places)
    match stripZeros (digits.drop (digits.length - places)) with
    | [] => whole
    | fraction => whole ++ '.' :: fraction

end Scientific

end FactQuery
