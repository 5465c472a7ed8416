/-
  PropertyGraph.Json.Basic
  ────────────────────────
  **JSON VALUES.**

  Query results, data files and rows to be compared are all JSON.  Integers
  and floats are different values (`1` and `1.0` are written differently),
  floats are finite, and an object keeps its members in the order in which
  they were written, repeated ones included: what a repeated member means is
  for the reader of the object to say.

  `normalize` gives the one order that results are written in: members by
  name at every level, of a repeated name the last.
-/
import PropertyGraph.Number.Binary64
import PropertyGraph.SortedMap.Basic

namespace PropertyGraph

/-- A JSON value. -/
inductive Json where
  | null
  | bool (b : Bool)
  | int (i : Int)
  | float (x : Finite64)
  | str (s : String)
  | array (items : List Json)
  | object (members : List (String × Json))

namespace Json

instance : Inhabited Json := ⟨.null⟩

/-! ## §1. Members. -/

/-- The last member of this name. -/
def lastMember? (name : String) (members : List (String × Json)) : Option Json :=
  (members.reverse.find? (fun member => member.1 == name)).map (·.2)

/-- The member of an object, if the value is one and has it. -/
def get? (name : String) : Json → Option Json
  | .object members => lastMember? name members
  | _ => none

/-! ## §2. Normal order. -/

mutual

/-- Members in the order of their names at every level. -/
def normalize : Json → Json
  | .array items => .array (normalizeItems items)
  | .object members => .object (SortedEntries.ofList (normalizeMembers members))
  | .null => .null
  | .bool b => .bool b
  | .int i => .int i
  | .float x => .float x
  | .str s => .str s

/-- Each item in normal order. -/
def normalizeItems : List Json → List Json
  | [] => []
  | item :: rest => normalize item :: normalizeItems rest

/-- Each member with its value in normal order. -/
def normalizeMembers : List (String × Json) → List (String × Json)
  | [] => []
  | (name, value) :: rest => (name, normalize value) :: normalizeMembers rest

end

/-! ## §3. Nesting. -/

mutual

/-- Levels of arrays and objects. -/
def depth : Json → Nat
  | .array items => depthItems items + 1
  | .object members => depthMembers members + 1
  | _ => 0

/-- The deepest of the items. -/
def depthItems : List Json → Nat
  | [] => 0
  | item :: rest => max (depth item) (depthItems rest)

/-- The deepest of the members. -/
def depthMembers : List (String × Json) → Nat
  | [] => 0
  | (_, value) :: rest => max (depth value) (depthMembers rest)

end

end Json

end PropertyGraph
