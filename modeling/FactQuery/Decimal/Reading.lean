import FactQuery.Binary64.Reading
import FactQuery.Decimal.Basic

/-!
# Reading a decimal

**Plain numerals.** An optional sign, then digits with at most one point; from the first digit on,
`_` may stand anywhere. Digits are kept as long as the coefficient has at most 96 bits and there are
at most 28 places. Before the point a digit too many is an error; after it the first digit that is
not kept rounds, a five upward in magnitude, and what follows has to be digits and `_`.

**Long numerals** (`isLong`). A `_` in the place of the rounding digit stands for a zero as long as
the coefficient is short; in a long one it is passed over, like everywhere else.

**Numerals with an exponent.** A plain numeral, `e` or `E`, and a power of ten: lowering the number
adds places and rounds off those beyond 28, raising it takes places away or adds digits.
-/

namespace FactQuery.Decimal

/-- What has been read of a plain numeral: the coefficient, the places once a point has been seen,
and whether there was a digit. -/
structure Kept where
  coefficient : Nat
  places : Option Nat
  started : Bool

namespace Kept

/-- Before the first character. -/
def start : Kept := ⟨0, none, false⟩

/-- No further place is kept. -/
def isFull (k : Kept) : Bool := k.places = some maxScale

/-- The coefficient could outgrow a 64-bit word, with some margin, before its last digit. -/
def isLong (k : Kept) : Bool := 0xFFFFFFFFFFFFFFFF / 10 - 255 ≤ k.coefficient / 10

/-- The coefficient and the scale of a numeral that ends here. -/
def finish (k : Kept) : Option (Nat × Nat) :=
  if k.started then some (k.coefficient, k.places.getD 0) else none

def push (k : Kept) (digit : Nat) : Kept :=
  ⟨10 * k.coefficient + digit, k.places.map (· + 1), true⟩

/-- The numeral ends with a digit that is only rounded. A coefficient that reaches 97 bits by
rounding loses a digit, and with it a place. -/
def round (k : Kept) (digit : Nat) : Option (Nat × Nat) :=
  match k.places with
  | none => none
  | some places =>
    let coefficient := if 5 ≤ digit then k.coefficient + 1 else k.coefficient
    if coefficient < coefficientLimit then some (coefficient, places)
    else if places = 0 then none
    else some ((coefficient + 4) / 10, places - 1)

end Kept

def digitValue (c : Char) : Nat := c.toNat - '0'.toNat

/-- The coefficient and the scale of a plain numeral without its sign. -/
def takePlain (k : Kept) : List Char → Option (Nat × Nat)
  | [] => k.finish
  | c :: s =>
    let roundedOff (digit : Nat) :=
      if s.all (fun c => c.isDigit || c == '_') then k.round digit else none
    if c.isDigit then
      let next := k.push (digitValue c)
      if k.isFull || coefficientLimit ≤ next.coefficient then roundedOff (digitValue c)
      else takePlain next s
    else if c = '_' ∧ k.started then
      if k.isFull && !k.isLong then roundedOff 0 else takePlain k s
    else if c = '.' ∧ k.places = none then takePlain { k with places := some 0 } s
    else none

/-- The decimal that a plain numeral spells. -/
def plain? (s : List Char) : Option Decimal :=
  let (negative, s) := takeSign s
  match takePlain .start s with
  | none => none
  | some (coefficient, scale) => ofParts? negative coefficient scale

/-- A power of ten after its mark and its minus: an optional plus and digits of a 32-bit number. -/
def power? (s : List Char) : Option Nat :=
  let digits := match s with
    | '+' :: s => s
    | s => s
  let n := Nat.ofDigitChars 10 digits 0
  if digits.isEmpty || !digits.all Char.isDigit || 0x100000000 ≤ n then none else some n

/-- The decimal divided by `10 ^ n`, with the places beyond the last one rounded off. -/
def lower (x : Decimal) (n : Nat) : Option Decimal :=
  let negative := x.coefficient < 0
  let coefficient := x.coefficient.natAbs
  if maxScale < n then none
  else if x.scale + n ≤ maxScale then ofParts? negative coefficient (x.scale + n)
  else
    let unit := tenPow (x.scale + n - maxScale)
    ofParts? negative ((2 * coefficient + unit) / (2 * unit)) maxScale

/-- The decimal multiplied by `10 ^ n`. -/
def raise (x : Decimal) (n : Nat) : Option Decimal :=
  let negative := x.coefficient < 0
  let coefficient := x.coefficient.natAbs
  if n ≤ x.scale then ofParts? negative coefficient (x.scale - n)
  else if maxScale < n then none
  else ofParts? negative (coefficient * tenPow (n - x.scale)) 0

/-- The decimal that a numeral with an exponent spells. -/
def scientific? (s : List Char) : Option Decimal :=
  let isMark (c : Char) := c == 'e' || c == 'E'
  match s.dropWhile (! isMark ·) with
  | [] => none
  | _ :: exponent =>
    match plain? (s.takeWhile (! isMark ·)), exponent with
    | none, _ => none
    | some x, '-' :: digits => (power? digits).bind x.lower
    | some x, digits => (power? digits).bind x.raise

/-- The decimal that a text spells, if it spells one. -/
def ofText? (s : List Char) : Option Decimal :=
  match plain? s with
  | some x => some x
  | none => scientific? s

end FactQuery.Decimal
