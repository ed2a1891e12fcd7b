import FactQuery.Value

/-!
# JSON values

**Numbers** (`JsonNumber`). A whole number that fits 64 bits is exact, with a sign or without one.
Every other number is the binary number that is nearest to it.

**Scalars** (`JsonValue.scalar?`). Arrays and objects apart, a value is one that a field may hold.
Of the numbers those are integers that fit 64 bits with a sign, and the others are binary.

**Objects.** The fields of an object are kept in ascending order of their names, by code points; a
name that comes twice keeps the later value.
-/

namespace FactQuery

/-- A number as JSON has it. -/
inductive JsonNumber where
  | natural (n : UInt64)
  | negative (n : Int64) (isNegative : n < 0)
  | binary (x : Binary64) (isFinite : x.isFinite = true)

namespace JsonNumber

/-- The integer that a number is, if it is one that fits 64 bits with a sign. -/
def toInt64? : JsonNumber → Option Int64
  | .natural n => if n.toNat < integerLimit then some (.ofNat n.toNat) else none
  | .negative n _ => some n
  | .binary _ _ => none

/-- The binary number nearest to a number. -/
def toBinary64 : JsonNumber → Binary64
  | .natural n => .ofRank false (Binary64.nearestRank n.toNat 1)
  | .negative n _ => .ofRank true (Binary64.nearestRank n.toInt.natAbs 1)
  | .binary x _ => x

end JsonNumber

inductive JsonValue where
  | null
  | boolean (b : Bool)
  | number (n : JsonNumber)
  | string (s : String)
  | array (items : List JsonValue)
  | object (fields : List (String × JsonValue))

inductive JsonType where
  | null
  | boolean
  | number
  | string
  | array
  | object
deriving DecidableEq

def JsonType.name : JsonType → String
  | .null => "null"
  | .boolean => "boolean"
  | .number => "number"
  | .string => "string"
  | .array => "array"
  | .object => "object"

namespace JsonValue

def type : JsonValue → JsonType
  | .null => .null
  | .boolean _ => .boolean
  | .number _ => .number
  | .string _ => .string
  | .array _ => .array
  | .object _ => .object

/-- The value that a field may hold; arrays and objects have none. -/
def scalar? : JsonValue → Option Value
  | .null => some .null
  | .boolean b => some (.boolean b)
  | .number n => match n.toInt64? with
    | some i => some (.integer i)
    | none => some (.float n.toBinary64)
  | .string s => some (.text s)
  | .array _ => none
  | .object _ => none

/-- Puts a field among fields in ascending order, in place of one of the same name. -/
def insertField (name : String) (v : JsonValue) :
    List (String × JsonValue) → List (String × JsonValue)
  | [] => [(name, v)]
  | (other, w) :: fields =>
    match compare name other with
    | .lt => (name, v) :: (other, w) :: fields
    | .eq => (name, v) :: fields
    | .gt => (other, w) :: insertField name v fields

/-- The object with the given fields, the later ones of a name winning. -/
def ofMembers (members : List (String × JsonValue)) : JsonValue :=
  .object (members.foldl (fun fields member => insertField member.1 member.2 fields) [])

end JsonValue

end FactQuery
