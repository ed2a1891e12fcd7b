import FactQuery.Fact
import FactQuery.Json.Basic

/-!
# Facts from JSON

An object is a record, an array of objects a sequence of records. The conversion takes all or
nothing: the first item that is no object, or the first field of an item that is no scalar, is the
fault.
-/

namespace FactQuery

/-- Why a JSON value gives no facts. -/
inductive FactsFault where
  | notAnObject (found : JsonType)
  | notAScalar (field : String) (found : JsonType)
deriving DecidableEq

def FactsFault.message : FactsFault → String
  | .notAnObject found => "expected an object, found " ++ found.name
  | .notAScalar field found =>
    "field '" ++ field ++ "' holds an " ++ found.name ++ "; fact values must be scalars"

def Fact.fieldOfJson (member : String × JsonValue) : Except FactsFault (String × Value) :=
  match member.2.scalar? with
  | some v => .ok (member.1, v)
  | none => .error (.notAScalar member.1 member.2.type)

/-- The record that a JSON value is. -/
def Fact.ofJson : JsonValue → Except FactsFault Fact
  | .object fields => (fields.mapM Fact.fieldOfJson).map Fact.mk
  | v => .error (.notAnObject v.type)

/-- The facts that a JSON value is. -/
def Facts.ofJson : JsonValue → Except FactsFault Facts
  | .array items => (items.mapM Fact.ofJson).map Facts.many
  | v => (Fact.ofJson v).map Facts.single

end FactQuery
