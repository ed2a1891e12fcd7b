import FactQuery.Scientific

/-!
# Binary64 numbers

**The type** (`Binary64`). A number is `nan` or a sign and a *rank*: the non-negative numbers are
counted in ascending order, zero having rank 0 and infinity the last one. The rank is what the 63
low bits of the interchange format spell.

**Exact values.** Every finite number is a multiple of the least positive one, `2⁻¹⁰⁷⁴`. `units` is
that multiple, so that exact arithmetic on finite numbers is arithmetic on naturals.

**Rounding** (`nearestRank`). A quotient of naturals is rounded once, to the nearest rank, a half to
the even one; what is too large becomes infinite.

**Order** (`compare?`). The usual partial order: `nan` is incomparable, both zeros are equal.
-/

namespace FactQuery

/-- The rank of infinity: 2047 finite exponents, each with `2 ^ 52` numbers. -/
def Binary64.infinityRank : Nat := 0x7FF0000000000000

/-- A number of the binary64 format. All NaNs are one. -/
inductive Binary64 where
  | nan
  | number (negative : Bool) (rank : Fin (Binary64.infinityRank + 1))
deriving DecidableEq

namespace Binary64

/-- The number with the given sign and rank; a rank beyond the last is infinite. -/
def ofRank (negative : Bool) (rank : Nat) : Binary64 :=
  .number negative ⟨min rank infinityRank, Nat.lt_succ_of_le (Nat.min_le_right ..)⟩

def zero : Binary64 := ofRank false 0

def infinity (negative : Bool) : Binary64 := ofRank negative infinityRank

/-- Zero of either sign. -/
def isZero : Binary64 → Bool
  | .nan => false
  | .number _ rank => rank.val == 0

/-- Neither infinite nor `nan`. -/
def isFinite : Binary64 → Bool
  | .nan => false
  | .number _ rank => rank.val != infinityRank

/-! ## The interchange format -/

/-- The 64 bits of a number, as a natural; a quiet pattern stands for `nan`. -/
def toBits : Binary64 → Nat
  | .nan => infinityRank + 0x8000000000000
  | .number negative rank => (if negative then 0x8000000000000000 else 0) + rank.val

def ofBits (bits : Nat) : Binary64 :=
  let rank := bits % 0x8000000000000000
  if infinityRank < rank then .nan else ofRank (bits / 0x8000000000000000 % 2 == 1) rank

/-! ## Exact values -/

def twoPow (n : Nat) : Nat := Nat.pow 2 n

/-- There are `2 ^ 52` numbers for each exponent. -/
def binadeSize : Nat := 0x10000000000000

/-- How many times the least positive number goes into one. -/
def unitsPerOne : Nat := twoPow 1074

/-- The finite number of the given rank as a multiple of the least positive one. -/
def units (rank : Nat) : Nat :=
  if rank < binadeSize then rank
  else (binadeSize + rank % binadeSize) * twoPow (rank / binadeSize - 1)

/-- The quotient `n / d` rounded to a natural, a half to the even one. -/
def roundHalfEven (n d : Nat) : Nat :=
  match compare (2 * (n % d)) d with
  | .lt => n / d
  | .gt => n / d + 1
  | .eq => n / d + n / d % 2

/-- The rank of the number nearest to `n / d`, a half going to the even rank. -/
def nearestRank (n d : Nat) : Nat :=
  let n := n * unitsPerOne
  let shift := (n / d).log2 - 52
  min (shift * binadeSize + roundHalfEven n (d * twoPow shift)) infinityRank

/-- The rank of the number nearest to a power-of-ten numeral. A numeral far outside the range of the
format is decided by its size alone. -/
def scientificRank (x : Scientific) : Nat :=
  if x.coefficient = 0 then 0
  else if 400 < x.exponent then infinityRank
  else if x.coefficient.log2 + x.exponent < -400 then 0
  else nearestRank x.num x.den

/-- The number nearest to a power-of-ten numeral with a sign. -/
def ofScientific (negative : Bool) (x : Scientific) : Binary64 :=
  ofRank negative (scientificRank x)

/-! ## Order -/

/-- Where a number stands on the line of ranks. -/
def position (negative : Bool) (rank : Nat) : Int :=
  if negative then -(rank : Int) else rank

/-- The order of two numbers, if they have one. -/
def compare? : Binary64 → Binary64 → Option Ordering
  | .number s a, .number t b => some (compare (position s a) (position t b))
  | _, _ => none

end Binary64

end FactQuery
