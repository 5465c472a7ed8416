/-
  PropertyGraph.Session.Outcome
  ─────────────────────────────
  **WHAT A STATEMENT ANSWERS.**

  CREATE and DELETE answer with counts, MATCH with its solutions, RETURN
  with rows.  A row is a list of named cells without repeated names; naming
  a column twice gives one cell, at the first place and with the last value.

  RETURN DISTINCT keeps the first of several rows with the same data.  Two
  rows have the same data if their texts agree once all members are put in
  the order of their names (`Row.key`).
-/
import PropertyGraph.Json.Printer
import PropertyGraph.Search.Bindings

namespace PropertyGraph

/-! ## §1. Rows. -/

/-- Named cells in the order of the columns. -/
structure Row where
  cells : List (String × Json)

namespace Row

/-- Sets a cell in place, or adds it at the end. -/
def put (column : String) (value : Json) : List (String × Json) → List (String × Json)
  | [] => [(column, value)]
  | cell :: rest =>
    if cell.1 = column then (column, value) :: rest else cell :: put column value rest

/-- The row of a list of columns and values. -/
def ofList (cells : List (String × Json)) : Row :=
  ⟨cells.foldl (fun row cell => put cell.1 cell.2 row) []⟩

/-- The columns in order. -/
def columns (row : Row) : List String := row.cells.map (·.1)

/-- The object of the cells. -/
def toJson (row : Row) : Json := .object row.cells

/-- The text of the row with all members in the order of their names. -/
def key (row : Row) : String := row.toJson.normalize.compact

/-- The rows whose keys are neither in `seen` nor those of earlier rows. -/
def distinctAfter (seen : SortedSet String) : List Row → List Row
  | [] => []
  | row :: rest =>
    if SortedMap.contains seen row.key then distinctAfter seen rest
    else row :: distinctAfter (seen.add row.key) rest

/-- The first of all rows with the same data. -/
def distinct (rows : List Row) : List Row := distinctAfter ∅ rows

/-- One solution shown for some variables; an unbound one is null. -/
def ofBindings (vars : List String) (bindings : Bindings) : Row :=
  ofList (vars.map (fun var =>
    (var, match bindings.find? var with
      | some entity => entity.toJson
      | none => .null)))

end Row

/-! ## §2. Outcomes. -/

/-- Entities made or removed by one statement. -/
structure Summary where
  nodes : Nat
  relationships : Nat
  deriving DecidableEq

/-- The answer to one statement. -/
inductive Outcome where
  | created (summary : Summary)
  | found (solutions : List Bindings)
  | returned (rows : List Row)
  | deleted (summary : Summary)

/-- The answer as it is shown. -/
def Outcome.toJson : Outcome → Json
  | .created _ => .object [("status", .str "created")]
  | .found solutions => .object [("matched", .array (solutions.map Bindings.toJson))]
  | .returned rows => .object [("return", .array (rows.map Row.toJson))]
  | .deleted _ => .object [("status", .str "deleted")]

end PropertyGraph
