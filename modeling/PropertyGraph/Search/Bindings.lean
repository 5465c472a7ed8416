/-
  PropertyGraph.Search.Bindings
  ─────────────────────────────
  **VARIABLES AND WHAT THEY ARE BOUND TO.**

  One solution of a search binds variables to snapshots of entities.  Two
  solutions agree if every variable bound in both means the same entity;
  agreement looks at identities alone, so snapshots of one entity taken at
  different times agree.

  The union of two solutions has to choose between two snapshots of one
  variable: it keeps those of the solution with more variables, and of the
  left one if both have equally many.
-/
import PropertyGraph.Entity

namespace PropertyGraph

/-- A finite assignment of entities to variables. -/
structure Bindings where
  entries : SortedMap String Entity

namespace Bindings

/-- No variable bound. -/
def empty : Bindings := ⟨∅⟩

instance : Inhabited Bindings := ⟨empty⟩

instance : EmptyCollection Bindings := ⟨empty⟩

/-! ## §1. Questions. -/

/-- What a variable is bound to. -/
def find? (bindings : Bindings) (var : String) : Option Entity := bindings.entries.find? var

/-- Is the variable bound? -/
def contains (bindings : Bindings) (var : String) : Bool := bindings.entries.contains var

/-- The bound variables in order. -/
def vars (bindings : Bindings) : List String := bindings.entries.keys

/-- How many variables are bound. -/
def size (bindings : Bindings) : Nat := bindings.entries.size

/-- Does every variable bound in both mean the same entity? -/
def agrees (left right : Bindings) : Bool :=
  right.entries.entries.all (fun (var, entity) =>
    match left.find? var with
    | some mine => mine.identity == entity.identity
    | none => true)

/-- The same variables, bound to the same entities. -/
def same (left right : Bindings) : Bool :=
  left.entries.entries.map (fun (var, entity) => (var, entity.identity))
    == right.entries.entries.map (fun (var, entity) => (var, entity.identity))

/-- The entities of several variables in order, if all are bound. -/
def key? (bindings : Bindings) : List String → Option (List EntityRef)
  | [] => some []
  | var :: vars =>
    match bindings.find? var, bindings.key? vars with
    | some entity, some key => some (entity.identity :: key)
    | _, _ => none

/-! ## §2. Growth. -/

/-- The bindings with one more, or a changed, variable. -/
def bind (bindings : Bindings) (var : String) (entity : Entity) : Bindings :=
  ⟨bindings.entries.insert var entity⟩

/-- The bindings with those of `extra` for variables not bound yet. -/
def extend (bindings extra : Bindings) : Bindings :=
  extra.entries.entries.foldl
    (fun bindings (var, entity) =>
      if bindings.contains var then bindings else bindings.bind var entity)
    bindings

/-- The union; the snapshots of the larger side count, of the left one
between equals. -/
def union (left right : Bindings) : Bindings :=
  if right.size ≤ left.size then left.extend right else right.extend left

/-- The object of variables and entities. -/
def toJson (bindings : Bindings) : Json :=
  .object (bindings.entries.entries.map (fun (var, entity) => (var, entity.toJson)))

end Bindings

end PropertyGraph
