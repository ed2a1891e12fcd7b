import FactQuery.Binary64.Basic

/-!
# The text of a binary64 number

**Which digits** (`shortest`). The fewest digits that read back as the number, and of those the ones
nearest to its exact value; of two equally near ones the greater. Numerals of one digit, two digits
and so on are tried, each at the two grid points around the exact value.

**How they are written** (`toText`). Positionally, without a point when the number is whole. Zero
keeps its sign, and the other numbers are `inf`, `-inf` and `NaN`.
-/

namespace FactQuery.Binary64

/-- Whether the exact value of `units` is below `10 ^ k`. -/
def belowPower (units : Nat) (k : Int) : Bool :=
  units * tenPow (-k).toNat < unitsPerOne * tenPow k.toNat

/-- The least `k` with the exact value below `10 ^ k`: the position of its leading digit, estimated
from the binary logarithm and corrected. -/
def leadingPower (units : Nat) : Int :=
  let k := ((units.log2 : Int) - 1074) * 30103 / 100000
  if belowPower units k then k else if belowPower units (k + 1) then k + 1 else k + 2

/-- Of the two multiples of `10 ^ e` around the exact value, the nearest one that reads back. -/
def readsBackAt (rank : Nat) (e : Int) : Option Scientific :=
  let n := units rank * tenPow (-e).toNat
  let d := unitsPerOne * tenPow e.toNat
  let lower : Scientific := ⟨n / d, e⟩
  let upper : Scientific := ⟨n / d + 1, e⟩
  match scientificRank lower == rank, scientificRank upper == rank with
  | false, false => none
  | true, false => some lower
  | false, true => some upper
  | true, true => some (if 2 * (n % d) < d then lower else upper)

/-- The exact value of a finite number. -/
def exact (rank : Nat) : Scientific := ⟨units rank * Nat.pow 5 1074, -1074⟩

/-- The fewest digits that read back as the finite number of this rank, nearest to its exact value.
-/
def shortest (rank : Nat) : Scientific :=
  let k := leadingPower (units rank)
  ((List.range 17).findSome? fun (i : Nat) => readsBackAt rank (k - (i + 1))).getD (exact rank)

def toText : Binary64 → List Char
  | .nan => "NaN".toList
  | .number negative rank =>
    (if negative then ['-'] else []) ++
      if rank.val = infinityRank then "inf".toList
      else if rank.val = 0 then ['0']
      else (shortest rank).toText

end FactQuery.Binary64
