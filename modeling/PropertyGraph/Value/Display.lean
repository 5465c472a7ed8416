/-
  PropertyGraph.Value.Display
  ───────────────────────────
  **PROPERTY VALUES FOR THE READER.**

  Unlike JSON this text is made to be looked at: strings stand in quotes
  without escapes, map keys without quotes, and floats positionally with
  the fewest digits, a whole one without a point.
-/
import PropertyGraph.Value.Basic
import PropertyGraph.Number.Shortest

namespace PropertyGraph

/-- Floats for the reader: a tie goes up, no powers of ten, `30` for thirty. -/
def Value.numberStyle : NumberStyle := ⟨.up, none, false⟩

/-- A float for the reader. -/
def Binary64.display : Binary64 → String
  | .nan => "NaN"
  | .infinite false => "inf"
  | .infinite true => "-inf"
  | .finite x => String.ofList (x.text Value.numberStyle)

namespace Value

mutual

/-- The value as text. -/
def display : Value → String
  | .null => "null"
  | .bool true => "true"
  | .bool false => "false"
  | .int i => toString i.toInt
  | .float x => x.display
  | .str s => "\"" ++ s ++ "\""
  | .list items => "[" ++ ", ".intercalate (displayItems items) ++ "]"
  | .map entries => "\x7b" ++ ", ".intercalate (displayEntries entries) ++ "\x7d"

/-- The texts of the items. -/
def displayItems : List Value → List String
  | [] => []
  | item :: rest => item.display :: displayItems rest

/-- Keys and texts of the entries. -/
def displayEntries : List (String × Value) → List String
  | [] => []
  | (key, value) :: rest => (key ++ ": " ++ value.display) :: displayEntries rest

end

end Value

end PropertyGraph
