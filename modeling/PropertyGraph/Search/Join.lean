/-
  PropertyGraph.Search.Join
  ─────────────────────────
  **JOINING SOLUTIONS.**

  The solutions of several chains are joined from left to right: each pair
  that agrees gives its union.  `nestedLoopJoin` says it in one line; `join`
  answers through an index of the right side by the entities of the shared
  variables, which are taken from the first solution of each side.  A right
  solution without all of them sends the whole join back to the nested loop,
  a left one looks through the right side by itself.
-/
import PropertyGraph.Search.Bindings

namespace PropertyGraph

/-- A number for each entity: nodes are even, relationships odd. -/
def EntityRef.code : EntityRef → Nat
  | .node id => 2 * id
  | .relationship id => 2 * id + 1

namespace Search

/-- The unions of one solution with each agreeing one of a list. -/
def joinOne (left : Bindings) (right : List Bindings) : List Bindings :=
  (right.filter left.agrees).map left.union

/-- The unions of all agreeing pairs, left side outermost. -/
def nestedLoopJoin (left right : List Bindings) : List Bindings :=
  left.flatMap (fun l => joinOne l right)

/-- Solutions under the code of their key, in their order. -/
abbrev JoinIndex := SortedMap (List Nat) (List Bindings)

/-- The index of keyed solutions; each list stands in the order of the input. -/
def joinIndex : List (List EntityRef × Bindings) → JoinIndex
  | [] => ∅
  | (key, bindings) :: rest =>
    let index := joinIndex rest
    let code := key.map EntityRef.code
    index.insert code (bindings :: (index.find? code).getD [])

/-- Every solution with its key, if all have one. -/
def keyed? (shared : List String) : List Bindings → Option (List (List EntityRef × Bindings))
  | [] => some []
  | bindings :: rest =>
    match bindings.key? shared, keyed? shared rest with
    | some key, some keyed => some ((key, bindings) :: keyed)
    | _, _ => none

/-- The join through an index over these shared variables. -/
def indexedJoin (shared : List String) (left right : List Bindings) (index : JoinIndex) :
    List Bindings :=
  left.flatMap (fun l =>
    match l.key? shared with
    | some key => joinOne l ((index.find? (key.map EntityRef.code)).getD [])
    | none => joinOne l right)

/-- The unions of all agreeing pairs, left side outermost. -/
def join (left right : List Bindings) : List Bindings :=
  match left, right with
  | l :: _, r :: _ =>
    -- solutions of one chain bind the same variables, so the first ones speak for all
    let shared := l.vars.filter r.contains
    match shared, keyed? shared right with
    | _ :: _, some keyed => indexedJoin shared left right (joinIndex keyed)
    | _, _ => nestedLoopJoin left right
  | _, _ => []

/-- All lists joined from left to right; no lists have no solution. -/
def joinAll : List (List Bindings) → List Bindings
  | [] => []
  | first :: rest => rest.foldl join first

end Search

end PropertyGraph
