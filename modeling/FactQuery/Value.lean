import FactQuery.Decimal.Reading
import FactQuery.Text.Blank

/-!
# Values and their loose comparison

**Values.** A field of a record holds nothing, a truth value, an integer, a binary number or a text.

**Loose comparison** (`Value.looseCompare`). Two texts compare as texts. Any other two values
compare as numbers: a truth value counts as one or zero, and a text as the number it spells, blanks
around it aside, the blank text as zero. Integers and texts that spell decimals are exact; two exact
numbers compare exactly, and with a binary number involved both sides compare in binary64. Where a
side has no numeric reading, or is not a number, there is no order.
-/

namespace FactQuery

/-- Integers are below this number, and not below its negation. -/
def integerLimit : Nat := 0x8000000000000000

/-- A scalar in a field of a record. -/
inductive Value where
  | null
  | boolean (b : Bool)
  | integer (n : Int64)
  | float (x : Binary64)
  | text (s : String)
deriving DecidableEq

/-- The numeric reading of a value. -/
inductive Number where
  | exact (x : Decimal)
  | approximate (x : Binary64)
deriving DecidableEq

namespace Number

def toBinary64 : Number → Binary64
  | .exact x => x.toBinary64
  | .approximate x => x

/-- The order of two numbers, exact when both are. -/
def compare? : Number → Number → Option Ordering
  | .exact a, .exact b => some (a.order b)
  | a, b => a.toBinary64.compare? b.toBinary64

/-- The number that a text spells: a decimal if it can be one, else a binary number. -/
def ofText? (s : String) : Option Number :=
  match Text.trim s.toList with
  | [] => some (.exact .zero)
  | s => match Decimal.ofText? s with
    | some x => some (.exact x)
    | none => (Binary64.ofText? s).map .approximate

end Number

namespace Value

/-- The numeric reading of a value, if it has one. -/
def number? : Value → Option Number
  | .null => none
  | .boolean b => some (.exact (if b then .one else .zero))
  | .integer n => some (.exact (.ofInt64 n))
  | .float x => some (.approximate x)
  | .text s => Number.ofText? s

/-- The order of two values, if they have one. -/
def looseCompare : Value → Value → Option Ordering
  | .text a, .text b => some (compare a b)
  | a, b => match a.number?, b.number? with
    | some x, some y => x.compare? y
    | _, _ => none

/-- Two values that compare as equal. -/
def looseEq (a b : Value) : Bool := a.looseCompare b == some .eq

end Value

end FactQuery
