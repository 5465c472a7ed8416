/-
  PropertyGraph.Proofs.Store.Contents
  ───────────────────────────────────
  **WHERE THE PROPERTIES OF A STORE COME FROM.**

  A store has no properties but those that operations brought in.  So whatever
  is true of the properties that the operations of a run carry is true of all
  properties of the store after it (`holds_run`).

  `store.Becomes p after` sums up what most of a program does to a store:
  operations that restore nothing and carry only what satisfies `p`, in some
  number.  What single operations keep is kept along it.
-/
import PropertyGraph.Proofs.Store.Coherence

namespace PropertyGraph

/-- What the operation brings into a store satisfies `p`. -/
def StoreOperation.Carries (p : PropertyMap → Prop) : StoreOperation → Prop
  | .createNode _ properties | .createRelationship _ _ _ properties
  | .setProperties _ properties => p properties
  | .restoreNode node => p node.properties
  | .restoreRelationship relationship => p relationship.properties
  | .deleteNode _ | .deleteRelationship _ | .reserve _ _ => True

namespace Store

/-! ## §1. Properties. -/

variable {p : PropertyMap → Prop} {store after : Store}

/-- The properties of every entity satisfy `p`. -/
structure Holds (p : PropertyMap → Prop) (store : Store) : Prop where
  node : ∀ {id node}, store.node? id = some node → p node.properties
  relationship : ∀ {id r}, store.relationship? id = some r → p r.properties

theorem holds_empty : Holds p empty where
  node h := nomatch h
  relationship h := nomatch h

theorem Holds.entersNode {node : Node} (h : store.Holds p) (henters : EntersNode store after node)
    (hnode : p node.properties) : after.Holds p where
  node hfound := by
    rw [henters.node?] at hfound
    split at hfound
    · exact Option.some.inj hfound ▸ hnode
    · exact h.node hfound
  relationship hfound := h.relationship (henters.relationship? _ ▸ hfound)

theorem Holds.entersRelationship {r : Relationship} (h : store.Holds p)
    (henters : EntersRelationship store after r) (hr : p r.properties) : after.Holds p where
  node hfound := h.node (henters.node? _ ▸ hfound)
  relationship hfound := by
    rw [henters.relationship?] at hfound
    split at hfound
    · exact Option.some.inj hfound ▸ hr
    · exact h.relationship hfound

theorem Holds.setProperties {id : NodeId} {node : Node} {properties : PropertyMap}
    (h : store.Holds p) (hproperties : p properties) :
    Holds p { store with nodes := store.nodes.insert id { node with properties } } where
  node hfound := by
    rw [node?_insert_properties] at hfound
    split at hfound
    · exact Option.some.inj hfound ▸ hproperties
    · exact h.node hfound
  relationship hfound := h.relationship hfound

theorem Holds.deleteNode (h : store.Holds p) (gone : NodeId) :
    Holds p (store.deleteNode gone).2 := by
  cases hgone : store.node? gone with
  | none => rwa [deleteNode_of_node?_none hgone]
  | some node =>
    exact
      { node := fun hfound => h.node ((node?_deleteNode_eq_some_iff hgone).1 hfound).2
        relationship := fun hfound => h.relationship ((relationship?_deleteNode hgone).1 hfound).1 }

theorem Holds.deleteRelationship (h : store.Holds p) (gone : RelationshipId) :
    Holds p (store.deleteRelationship gone).2 where
  node hfound := h.node (node?_deleteRelationship store gone _ ▸ hfound)
  relationship hfound := h.relationship (relationship?_deleteRelationship_eq_some_iff.1 hfound).2

theorem Holds.apply (h : store.Holds p) {operation : StoreOperation}
    (hoperation : operation.Carries p) : Holds p (store.apply operation).2 := by
  cases operation with
  | createNode labels properties =>
    exact h.entersNode (entersNode_createNode store labels properties) hoperation
  | createRelationship type start end_ properties =>
    rw [Store.apply]
    cases hcreate : store.createRelationship type start end_ properties with
    | error error => exact h
    | ok result =>
      exact h.entersRelationship (entersRelationship_createRelationship hcreate).1 hoperation
  | setProperties id properties =>
    rw [Store.apply]
    cases hset : store.setProperties id properties with
    | error error => exact h
    | ok result =>
      obtain ⟨node, -, -, hafter⟩ := setProperties_eq_ok_iff.1 hset
      show Holds p result.2
      rw [hafter]
      exact h.setProperties hoperation
  | deleteNode gone => exact h.deleteNode gone
  | deleteRelationship gone => exact h.deleteRelationship gone
  | restoreNode node => exact h.entersNode (entersNode_restoreNode store node) hoperation
  | restoreRelationship relationship =>
    rw [Store.apply]
    cases hrestore : store.restoreRelationship relationship with
    | error error => exact h
    | ok after =>
      exact h.entersRelationship (entersRelationship_restoreRelationship hrestore) hoperation
  | reserve nextNode nextRelationship => exact ⟨h.node, h.relationship⟩

/-- **What all operations of a run carry, the store holds after it.** -/
theorem holds_run {operations : List StoreOperation} : ∀ {store : Store}, store.Holds p →
    (∀ operation ∈ operations, operation.Carries p) → Holds p (store.run operations).2 := by
  induction operations with
  | nil => intro store h _; exact h
  | cons operation rest ih =>
    intro store h hcarries
    exact ih (h.apply (hcarries operation List.mem_cons_self))
      (fun other hother => hcarries other (List.mem_cons_of_mem _ hother))

/-! ## §2. Ordinary runs. -/

/-- `after` comes of `store` by operations that restore nothing and carry only
what satisfies `p`. -/
def Becomes (p : PropertyMap → Prop) (store after : Store) : Prop :=
  ∃ operations, (∀ operation ∈ operations, operation.isRestoring = false ∧ operation.Carries p)
    ∧ after = (store.run operations).2

theorem Becomes.refl (p : PropertyMap → Prop) (store : Store) : store.Becomes p store :=
  ⟨[], fun _ hmem => absurd hmem List.not_mem_nil, rfl⟩

theorem Becomes.trans {last : Store} (h : store.Becomes p after) (h' : after.Becomes p last) :
    store.Becomes p last := by
  obtain ⟨first, hfirst, rfl⟩ := h
  obtain ⟨second, hsecond, rfl⟩ := h'
  refine ⟨first ++ second, fun operation hmem => ?_, (run_append store first second).symm⟩
  exact (List.mem_append.1 hmem).elim (hfirst operation) (hsecond operation)

theorem becomes_apply (store : Store) (operation : StoreOperation)
    (hordinary : operation.isRestoring = false) (hcarries : operation.Carries p) :
    store.Becomes p (store.apply operation).2 :=
  ⟨[operation], fun _ hmem => List.mem_singleton.1 hmem ▸ ⟨hordinary, hcarries⟩, rfl⟩

theorem Becomes.holds (h : store.Becomes p after) (hstore : store.Holds p) : after.Holds p := by
  obtain ⟨operations, hoperations, rfl⟩ := h
  exact holds_run hstore (fun operation hmem => (hoperations operation hmem).2)

end Store

end PropertyGraph
