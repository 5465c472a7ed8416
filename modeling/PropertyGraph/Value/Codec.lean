/-
  PropertyGraph.Value.Codec
  ─────────────────────────
  **PROPERTY VALUES AS JSON.**

  A value is written as the JSON value it looks like; a float that is not
  finite has no JSON form and is written as null.  Reading goes the other
  way: a number written with a point or a power of ten is a float, any other
  an integer, or the nearest float if it does not fit 64 bits.
-/
import PropertyGraph.Value.Basic
import PropertyGraph.Json.Basic

namespace PropertyGraph.Value

mutual

/-- The JSON form. -/
def toJson : Value → Json
  | .null => .null
  | .bool b => .bool b
  | .int i => .int i.toInt
  | .float (.finite x) => .float x
  | .float .nan => .null
  | .float (.infinite _) => .null
  | .str s => .str s
  | .list items => .array (itemsToJson items)
  | .map entries => .object (entriesToJson entries)

/-- The JSON forms of the items. -/
def itemsToJson : List Value → List Json
  | [] => []
  | item :: rest => item.toJson :: itemsToJson rest

/-- Members with the JSON forms of the values. -/
def entriesToJson : List (String × Value) → List (String × Json)
  | [] => []
  | (key, value) :: rest => (key, value.toJson) :: entriesToJson rest

end

/-- An integer, or the nearest float if it does not fit 64 bits. -/
def ofInt (i : Int) : Value :=
  if Int64.minValue.toInt ≤ i ∧ i ≤ Int64.maxValue.toInt then .int (Int64.ofInt i)
  else .float (Binary64.ofInt i)

mutual

/-- The value that a JSON value stands for. -/
def ofJson : Json → Value
  | .null => .null
  | .bool b => .bool b
  | .int i => ofInt i
  | .float x => .float (.finite x)
  | .str s => .str s
  | .array items => .list (itemsOfJson items)
  | .object members => .map (SortedEntries.ofList (entriesOfJson members))

/-- The values of the items. -/
def itemsOfJson : List Json → List Value
  | [] => []
  | item :: rest => ofJson item :: itemsOfJson rest

/-- Entries with the values of the members. -/
def entriesOfJson : List (String × Json) → List (String × Value)
  | [] => []
  | (key, value) :: rest => (key, ofJson value) :: entriesOfJson rest

end

end PropertyGraph.Value

namespace PropertyGraph.PropertyMap

/-- The JSON object of the properties. -/
def toJson (properties : PropertyMap) : Json :=
  .object (Value.entriesToJson properties.entries)

/-- The properties of the members of a JSON object. -/
def ofMembers (members : List (String × Json)) : PropertyMap :=
  ofList (Value.entriesOfJson members)

end PropertyGraph.PropertyMap
