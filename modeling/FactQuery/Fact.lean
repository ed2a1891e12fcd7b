import FactQuery.Value

/-!
# Records

A record gives values to field names. Facts are what an expression is decided against: one record,
or a sequence of records in order.
-/

namespace FactQuery

/-- A record, given by its fields; the first entry for a name counts. -/
structure Fact where
  fields : List (String × Value)
deriving DecidableEq

def Fact.get? (fact : Fact) (field : String) : Option Value := fact.fields.lookup field

/-- One record, or a sequence of records. -/
inductive Facts where
  | single (fact : Fact)
  | many (records : List Fact)
deriving DecidableEq

namespace Facts

def length : Facts → Nat
  | .single _ => 1
  | .many records => records.length

def isEmpty (facts : Facts) : Bool := facts.length == 0

end Facts

end FactQuery
