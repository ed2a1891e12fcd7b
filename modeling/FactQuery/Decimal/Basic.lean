import FactQuery.Binary64.Arithmetic

/-!
# Decimals

**The type** (`Decimal`). A signed coefficient of at most 96 bits and a scale of at most 28 places.
One number has several decimals (`1`, `1.0`), so decimals are compared by value: the order is that
of the rational numbers they stand for.

**The nearby binary number** (`toBinary64`). A decimal without places is rounded once. Otherwise the
whole and the fractional part are converted apart and added, and the sum is rounded to the places of
the decimal, every step in binary64.
-/

namespace FactQuery

/-- The coefficients of decimals have at most 96 bits. -/
def Decimal.coefficientLimit : Nat := 0x1000000000000000000000000

def Decimal.maxScale : Nat := 28

/-- The number `coefficient / 10 ^ scale`. -/
structure Decimal where
  coefficient : Int
  scale : Nat
  coefficient_lt : coefficient.natAbs < Decimal.coefficientLimit
  scale_le : scale ≤ Decimal.maxScale
deriving DecidableEq

namespace Decimal

/-- The decimal with the given sign, digits and places, if they fit. -/
def ofParts? (negative : Bool) (coefficient scale : Nat) : Option Decimal :=
  if h : coefficient < coefficientLimit ∧ scale ≤ maxScale then
    some ⟨if negative then -(coefficient : Int) else coefficient, scale,
      by split <;> simp [h.1], h.2⟩
  else none

def ofInt64 (n : Int64) : Decimal :=
  ⟨n.toInt, 0, by
    have := n.le_toInt
    have := n.toInt_lt
    simp only [coefficientLimit]
    omega, Nat.zero_le _⟩

def zero : Decimal := ofInt64 0

def one : Decimal := ofInt64 1

/-- The order of two decimals as rational numbers. -/
def order (a b : Decimal) : Ordering :=
  compare (a.coefficient * tenPow b.scale) (b.coefficient * tenPow a.scale)

/-! ## The nearby binary number -/

open Binary64 in
/-- The rank of the number that stands for `coefficient / 10 ^ scale`. -/
def toRank (coefficient scale : Nat) : Nat :=
  if scale = 0 then rankOfNat coefficient
  else
    let power := rankOfNat (tenPow scale)
    let whole := rankOfNat (coefficient / tenPow scale)
    let fraction := divRanks (rankOfNat (coefficient % tenPow scale)) power
    if fraction = 0 then whole
    else divRanks (roundRank (mulRanks (addRanks whole fraction) power)) power

/-- The binary number that stands for a decimal. -/
def toBinary64 (x : Decimal) : Binary64 :=
  .ofRank (x.coefficient < 0) (toRank x.coefficient.natAbs x.scale)

end Decimal

end FactQuery
