/-
  PropertyGraph.Proofs.Store.Operation
  ────────────────────────────────────
  **OPERATIONS AS DATA, AND RUNS OF THEM.**

  Every way of changing a store is a `StoreOperation`, and what it answers a
  `StoreAnswer`.  An operation that fails, or finds nothing to delete, hands
  back the store it was given.

  Restoring puts an entity back under its own id.  A run is UNTANGLED if it
  enters no entity under an id that is in use at that moment.  Runs that
  restore no id they have ever used before are of this kind, and so are those
  that restore an id after its entity was deleted; unless the 64 bits of an
  id have been used up, and creation is back at ids that are in use.  A run
  FITS if that does not come about: no entity is entered under the last id.
-/
import PropertyGraph.Store.Basic

namespace PropertyGraph

/-! ## §1. Operations and answers. -/

/-- One change of a store. -/
inductive StoreOperation where
  | createNode (labels : List Label) (properties : PropertyMap)
  | createRelationship (type : RelationshipType) (start end_ : NodeId) (properties : PropertyMap)
  | setProperties (id : NodeId) (properties : PropertyMap)
  | deleteNode (id : NodeId)
  | deleteRelationship (id : RelationshipId)
  | restoreNode (node : Node)
  | restoreRelationship (relationship : Relationship)
  | reserve (nextNode : NodeId) (nextRelationship : RelationshipId)

/-- Does the operation put an entity back under an id it already has? -/
def StoreOperation.isRestoring : StoreOperation → Bool
  | .restoreNode _ | .restoreRelationship _ => true
  | _ => false

/-- What an operation answers. -/
inductive StoreAnswer where
  | madeNode (id : NodeId)
  | madeRelationship (result : Except StoreError RelationshipId)
  | setProperties (old : Except StoreError PropertyMap)
  | deletedNode (node : Option Node)
  | deletedRelationship (relationship : Option Relationship)
  | restoredNode
  | restoredRelationship (result : Except StoreError Unit)
  | reserved

/-- The operation did not do what it was asked to do. -/
def StoreAnswer.Failed : StoreAnswer → Prop
  | .madeRelationship (.error _) | .setProperties (.error _) | .deletedNode none
  | .deletedRelationship none | .restoredRelationship (.error _) => True
  | _ => False

namespace Store

/-- The answer to an operation and the store after it. -/
def apply (store : Store) : StoreOperation → StoreAnswer × Store
  | .createNode labels properties =>
    let (id, store) := store.createNode labels properties
    (.madeNode id, store)
  | .createRelationship type start end_ properties =>
    match store.createRelationship type start end_ properties with
    | .ok (id, store) => (.madeRelationship (.ok id), store)
    | .error error => (.madeRelationship (.error error), store)
  | .setProperties id properties =>
    match store.setProperties id properties with
    | .ok (old, store) => (.setProperties (.ok old), store)
    | .error error => (.setProperties (.error error), store)
  | .deleteNode id =>
    let (node, store) := store.deleteNode id
    (.deletedNode node, store)
  | .deleteRelationship id =>
    let (relationship, store) := store.deleteRelationship id
    (.deletedRelationship relationship, store)
  | .restoreNode node => (.restoredNode, store.restoreNode node)
  | .restoreRelationship relationship =>
    match store.restoreRelationship relationship with
    | .ok store => (.restoredRelationship (.ok ()), store)
    | .error error => (.restoredRelationship (.error error), store)
  | .reserve nextNode nextRelationship => (.reserved, store.reserve nextNode nextRelationship)

/-- The operation enters nothing under an id that is in use. -/
def Untangled (store : Store) : StoreOperation → Prop
  | .createNode _ _ => store.node? store.nextNodeId = none
  | .createRelationship _ start end_ _ =>
    store.danglingEnd? start end_ = none → store.relationship? store.nextRelationshipId = none
  | .restoreNode node => store.node? node.id = none
  | .restoreRelationship relationship =>
    store.danglingEnd? relationship.start relationship.end = none →
      store.relationship? relationship.id = none
  | _ => True

instance (store : Store) : ∀ operation, Decidable (store.Untangled operation)
  | .createNode _ _ | .restoreNode _ => inferInstanceAs (Decidable (_ = none))
  | .createRelationship _ _ _ _ | .restoreRelationship _ =>
    inferInstanceAs (Decidable (_ = none → _ = none))
  | .setProperties _ _ | .deleteNode _ | .deleteRelationship _ | .reserve _ _ =>
    instDecidableTrue

/-- The operation enters nothing under the last id of 64 bits, which has no next
one, and raises no counter further. -/
def Fits (store : Store) : StoreOperation → Prop
  | .createNode _ _ => store.nextNodeId + 1 < UInt64.size
  | .createRelationship _ start end_ _ =>
    store.danglingEnd? start end_ = none → store.nextRelationshipId + 1 < UInt64.size
  | .restoreNode node => node.id + 1 < UInt64.size
  | .restoreRelationship relationship =>
    store.danglingEnd? relationship.start relationship.end = none →
      relationship.id + 1 < UInt64.size
  | .reserve nextNode nextRelationship =>
    nextNode < UInt64.size ∧ nextRelationship < UInt64.size
  | .setProperties _ _ | .deleteNode _ | .deleteRelationship _ => True

instance (store : Store) : ∀ operation, Decidable (store.Fits operation)
  | .createNode _ _ | .restoreNode _ => inferInstanceAs (Decidable (_ < _))
  | .createRelationship _ _ _ _ | .restoreRelationship _ =>
    inferInstanceAs (Decidable (_ = none → _ < _))
  | .reserve _ _ => inferInstanceAs (Decidable (_ ∧ _))
  | .setProperties _ _ | .deleteNode _ | .deleteRelationship _ => instDecidableTrue

/-! ## §2. Runs. -/

/-- The answers to operations in order, and the store after all of them. -/
def run (store : Store) : List StoreOperation → List StoreAnswer × Store
  | [] => ([], store)
  | operation :: rest =>
    let (answer, store) := store.apply operation
    let (answers, store) := store.run rest
    (answer :: answers, store)

theorem run_append (store : Store) (first second : List StoreOperation) :
    (store.run (first ++ second)).2 = ((store.run first).2.run second).2 := by
  induction first generalizing store with
  | nil => rfl
  | cons operation rest ih => exact ih (store.apply operation).2

/-- No operation of a run enters anything under an id that is in use when its
turn comes. -/
def UntangledRun (store : Store) : List StoreOperation → Prop
  | [] => True
  | operation :: rest => store.Untangled operation ∧ (store.apply operation).2.UntangledRun rest

instance decidableUntangledRun (store : Store) :
    ∀ operations, Decidable (store.UntangledRun operations)
  | [] => instDecidableTrue
  | operation :: rest =>
    @instDecidableAnd _ _ _ (decidableUntangledRun (store.apply operation).2 rest)

/-- A run restores no id that is in use when its turn comes. -/
def RestoresUnused (store : Store) : List StoreOperation → Prop
  | [] => True
  | operation :: rest => (operation.isRestoring = true → store.Untangled operation)
    ∧ (store.apply operation).2.RestoresUnused rest

/-- Every operation of a run keeps to the ids of 64 bits. -/
def FitsRun (store : Store) : List StoreOperation → Prop
  | [] => True
  | operation :: rest => store.Fits operation ∧ (store.apply operation).2.FitsRun rest

instance decidableFitsRun (store : Store) : ∀ operations, Decidable (store.FitsRun operations)
  | [] => instDecidableTrue
  | operation :: rest =>
    @instDecidableAnd _ _ _ (decidableFitsRun (store.apply operation).2 rest)

theorem fitsRun_append_iff {store : Store} {first second : List StoreOperation} :
    store.FitsRun (first ++ second)
      ↔ store.FitsRun first ∧ (store.run first).2.FitsRun second := by
  induction first generalizing store with
  | nil => exact (and_iff_right trivial).symm
  | cons operation rest ih => exact (and_congr_right fun _ => ih).trans and_assoc.symm

/-- The store is reached from the empty one by some untangled run. -/
def Reachable (store : Store) : Prop :=
  ∃ operations, empty.UntangledRun operations ∧ store = (empty.run operations).2

end Store

end PropertyGraph
