import FactQuery.Binary64.Basic

/-!
# Arithmetic on finite non-negative numbers

Each operation is the exact one, rounded once. Numbers are given by their ranks.
-/

namespace FactQuery.Binary64

/-- The number nearest to a natural. -/
def rankOfNat (n : Nat) : Nat := nearestRank n 1

def addRanks (a b : Nat) : Nat := nearestRank (units a + units b) unitsPerOne

def mulRanks (a b : Nat) : Nat := nearestRank (units a * units b) (unitsPerOne * unitsPerOne)

/-- The quotient by a positive number. -/
def divRanks (a b : Nat) : Nat := nearestRank (units a) (units b)

/-- The nearest whole number, a half going up. -/
def roundRank (a : Nat) : Nat := rankOfNat ((2 * units a + unitsPerOne) / (2 * unitsPerOne))

end FactQuery.Binary64
