/-
  PropertyGraph.Proofs.Store.Lifetime
  ───────────────────────────────────
  **WHAT AN ID STANDS FOR DOES NOT CHANGE.**

  As long as nothing is restored and the ids last, nodes come only under ids
  that the counter has not passed.  So a node with an id from before was there
  all the time, with the labels it has (`SameNode`, `sameNode_run`), and a
  relationship that is found between two ids joins the nodes it was made for.

  While the ids last, restoring included, an id that the counter has passed is
  not handed out again (`le_of_made_run`).
-/
import PropertyGraph.Proofs.Store.Coherence

namespace PropertyGraph

namespace Store

variable {store after : Store}

/-! ## §1. A node and its id. -/

/-- The node is there before and after, with the same labels. -/
def SameNode (store after : Store) (id : NodeId) : Prop :=
  ∃ old new, store.node? id = some old ∧ after.node? id = some new ∧ old.labels = new.labels

theorem SameNode.trans {last : Store} {id : NodeId} (h : store.SameNode after id)
    (h' : after.SameNode last id) : store.SameNode last id := by
  obtain ⟨old, middle, hold, hmiddle, hlabels⟩ := h
  obtain ⟨middle', new, hmiddle', hnew, hlabels'⟩ := h'
  obtain rfl : middle = middle' := Option.some.inj (hmiddle.symm.trans hmiddle')
  exact ⟨old, new, hold, hnew, hlabels.trans hlabels'⟩

theorem sameNode_of_node?_eq {id : NodeId} {node : Node}
    (heq : after.node? id = store.node? id) (hnode : after.node? id = some node) :
    store.SameNode after id :=
  ⟨node, node, heq.symm.trans hnode, hnode, rfl⟩

/-- **No operation but restoring brings a node under an old id.** -/
theorem sameNode_apply {operation : StoreOperation}
    (hoperation : operation.isRestoring = false) {id : NodeId} {node : Node}
    (hlt : id < store.nextNodeId) (hnode : (store.apply operation).2.node? id = some node) :
    store.SameNode (store.apply operation).2 id := by
  cases operation with
  | createNode labels properties =>
    refine sameNode_of_node?_eq ?_ hnode
    exact ((entersNode_createNode store labels properties).node? id).trans
      (if_neg (Nat.ne_of_lt hlt))
  | createRelationship type start end_ properties =>
    rw [Store.apply] at hnode ⊢
    cases h : store.createRelationship type start end_ properties with
    | error error =>
      rw [h] at hnode
      exact sameNode_of_node?_eq rfl hnode
    | ok result =>
      rw [h] at hnode
      exact sameNode_of_node?_eq ((entersRelationship_createRelationship h).1.node? id) hnode
  | setProperties changed properties =>
    rw [Store.apply] at hnode ⊢
    cases h : store.setProperties changed properties with
    | error error =>
      rw [h] at hnode
      exact sameNode_of_node?_eq rfl hnode
    | ok result =>
      rw [h] at hnode
      obtain ⟨old, hold, -, hafter⟩ := setProperties_eq_ok_iff.1 h
      dsimp only at hnode ⊢
      -- the one node that changes keeps its labels
      rw [hafter, node?_insert_properties] at hnode
      by_cases heq : id = changed
      · subst heq
        rw [if_pos rfl] at hnode
        refine ⟨old, node, hold, ?_, ?_⟩
        · rw [hafter, node?_insert_properties, if_pos rfl, hnode]
        · rw [← Option.some.inj hnode]
      · rw [if_neg heq] at hnode
        refine ⟨node, node, hnode, ?_, rfl⟩
        rw [hafter, node?_insert_properties, if_neg heq, hnode]
  | deleteNode gone =>
    cases hgone : store.node? gone with
    | none =>
      have hsame : (store.apply (.deleteNode gone)).2 = store := by
        rw [Store.apply, deleteNode_of_node?_none hgone]
      rw [hsame] at hnode ⊢
      exact sameNode_of_node?_eq rfl hnode
    | some old =>
      have hkept := (node?_deleteNode_eq_some_iff hgone).1 hnode
      exact sameNode_of_node?_eq (hnode.trans hkept.2.symm) hnode
  | deleteRelationship gone =>
    exact sameNode_of_node?_eq (node?_deleteRelationship store gone id) hnode
  | restoreNode restored => cases hoperation
  | restoreRelationship restored => cases hoperation
  | reserve nextNode nextRelationship => exact sameNode_of_node?_eq rfl hnode

/-- **A node with an old id was there all the time.** -/
theorem sameNode_run {operations : List StoreOperation} :
    ∀ {store : Store} {id : NodeId} {node : Node},
      (∀ operation ∈ operations, operation.isRestoring = false) → store.FitsRun operations →
      id < store.nextNodeId → (store.run operations).2.node? id = some node →
      ∀ before rest, operations = before ++ rest → store.SameNode (store.run before).2 id := by
  induction operations with
  | nil =>
    intro store id node _ _ _ hnode before rest hsplit
    obtain ⟨rfl, -⟩ := List.append_eq_nil_iff.1 hsplit.symm
    exact sameNode_of_node?_eq rfl hnode
  | cons operation tail ih =>
    intro store id node hordinary hfits hlt hnode before rest hsplit
    have hlater : id < (store.apply operation).2.nextNodeId :=
      Nat.lt_of_lt_of_le hlt (counters_le_apply hfits.1).1
    have htail := ih (fun other hother => hordinary other (List.mem_cons_of_mem _ hother))
      hfits.2 hlater hnode
    -- there after the first operation, so there before it
    obtain ⟨first, -, hfirst, -, -⟩ := htail [] tail rfl
    have hstep : store.SameNode (store.apply operation).2 id :=
      sameNode_apply (hordinary operation List.mem_cons_self) hlt hfirst
    cases before with
    | nil =>
      obtain ⟨old, -, hold, -, -⟩ := hstep
      exact sameNode_of_node?_eq rfl hold
    | cons other before =>
      obtain ⟨rfl, htailSplit⟩ := List.cons.inj hsplit
      exact hstep.trans (htail before rest htailSplit)

/-! ## §2. Ids that are handed out. -/

/-- Node ids are handed out by creating a node, and only there. -/
theorem exists_createNode_of_madeNode {operation : StoreOperation} {id : NodeId}
    (h : (store.apply operation).1 = .madeNode id) :
    ∃ labels properties, operation = .createNode labels properties := by
  cases operation with
  | createNode labels properties => exact ⟨labels, properties, rfl⟩
  | createRelationship type start end_ properties =>
    rw [Store.apply] at h
    split at h <;> cases h
  | setProperties id properties =>
    rw [Store.apply] at h
    split at h <;> cases h
  | restoreRelationship relationship =>
    rw [Store.apply] at h
    split at h <;> cases h
  | deleteNode | deleteRelationship | restoreNode | reserve => cases h

theorem eq_nextNodeId_of_madeNode {operation : StoreOperation} {id : NodeId}
    (h : (store.apply operation).1 = .madeNode id) : id = store.nextNodeId := by
  obtain ⟨labels, properties, rfl⟩ := exists_createNode_of_madeNode h
  exact (StoreAnswer.madeNode.inj h).symm

/-- Relationship ids are handed out by creating a relationship, and only
there. -/
theorem exists_createRelationship_of_madeRelationship {operation : StoreOperation}
    {id : RelationshipId} (h : (store.apply operation).1 = .madeRelationship (.ok id)) :
    ∃ type start end_ properties after,
      operation = .createRelationship type start end_ properties
        ∧ store.createRelationship type start end_ properties = .ok (id, after) := by
  cases operation with
  | createRelationship type start end_ properties =>
    rw [Store.apply] at h
    cases hcreate : store.createRelationship type start end_ properties with
    | error error =>
      rw [hcreate] at h
      cases h
    | ok result =>
      rw [hcreate] at h
      cases h
      exact ⟨type, start, end_, properties, result.2, rfl, hcreate⟩
  | setProperties id properties =>
    rw [Store.apply] at h
    split at h <;> cases h
  | restoreRelationship relationship =>
    rw [Store.apply] at h
    split at h <;> cases h
  | createNode | deleteNode | deleteRelationship | restoreNode | reserve => cases h

theorem eq_nextRelationshipId_of_madeRelationship {operation : StoreOperation}
    {id : RelationshipId} (h : (store.apply operation).1 = .madeRelationship (.ok id)) :
    id = store.nextRelationshipId := by
  obtain ⟨_, _, _, _, _, rfl, hcreate⟩ := exists_createRelationship_of_madeRelationship h
  exact (entersRelationship_createRelationship hcreate).2

/-- **Ids that a run hands out are ids the counters have not passed**,
whatever the run restores, while the ids last. -/
theorem le_of_made_run {operations : List StoreOperation} : ∀ {store : Store},
    store.FitsRun operations →
    (∀ id, .madeNode id ∈ (store.run operations).1 → store.nextNodeId ≤ id)
      ∧ ∀ id, .madeRelationship (.ok id) ∈ (store.run operations).1 →
          store.nextRelationshipId ≤ id := by
  induction operations with
  | nil =>
    intro store _
    exact ⟨fun _ h => absurd h List.not_mem_nil, fun _ h => absurd h List.not_mem_nil⟩
  | cons operation rest ih =>
    intro store hfits
    obtain ⟨hnodes, hrelationships⟩ := ih hfits.2
    obtain ⟨hnode, hrelationship⟩ := counters_le_apply hfits.1
    constructor
    · intro id h
      rcases List.mem_cons.1 h with hfirst | hrest
      · exact Nat.le_of_eq (eq_nextNodeId_of_madeNode hfirst.symm).symm
      · exact Nat.le_trans hnode (hnodes id hrest)
    · intro id h
      rcases List.mem_cons.1 h with hfirst | hrest
      · exact Nat.le_of_eq (eq_nextRelationshipId_of_madeRelationship hfirst.symm).symm
      · exact Nat.le_trans hrelationship (hrelationships id hrest)

end Store

end PropertyGraph
