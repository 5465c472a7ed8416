/-
  PropertyGraph.Proofs.Store.Reference
  ────────────────────────────────────
  **THE INDEXED STORE AND A GRAPH WITHOUT INDICES.**

  A `PlainGraph` keeps the two maps and the two counters and nothing else.
  It answers by scanning: the relationships that start at a node are those
  of all relationships that do, and a node goes together with every
  relationship that touches it.

  `Store.plain` forgets the indices.  On coherent stores it is a simulation:

      plain_apply       — one operation: same answer, same graph after it
      looksLike_plain   — every question has the same answer
      run_eq_plain_run  — both along a whole run from the empty store

  The one thing such a run must not do is to enter an entity under an id in
  use.  Restoring can do so, and so can creation, once the last id has been
  handed out and the counter is back at the first ones
  (`run_ne_plain_run_exhaustingRun`).
-/
import PropertyGraph.Proofs.Store.Coherence

namespace PropertyGraph

/-! ## §1. The graph without indices. -/

/-- Nodes and relationships by id, and the counters. -/
structure PlainGraph where
  nodes : SortedMap NodeId Node
  relationships : SortedMap RelationshipId Relationship
  nextNodeId : NodeId
  nextRelationshipId : RelationshipId

namespace PlainGraph

/-- The graph before anything was created. -/
def empty : PlainGraph := ⟨∅, ∅, 1, 1⟩

/-- All nodes in the order of their ids. -/
def allNodes (graph : PlainGraph) : List Node := graph.nodes.values

/-- All relationships in the order of their ids. -/
def allRelationships (graph : PlainGraph) : List Relationship := graph.relationships.values

/-- A scan for relationships that start at a node. -/
def leaving (graph : PlainGraph) (id : NodeId) : List Relationship :=
  graph.allRelationships.filter (fun r => r.startsFrom id)

/-- A scan for relationships that end at a node. -/
def entering (graph : PlainGraph) (id : NodeId) : List Relationship :=
  graph.allRelationships.filter (fun r => r.endsAt id)

/-- A scan for nodes that carry a label. -/
def labelled (graph : PlainGraph) (label : Label) : List Node :=
  graph.allNodes.filter (fun node => node.hasLabel label)

/-- The first end that a relationship would leave dangling. -/
def danglingEnd? (graph : PlainGraph) (start end_ : NodeId) : Option StoreError :=
  if ¬ graph.nodes.contains start then some (.danglingStart start)
  else if ¬ graph.nodes.contains end_ then some (.danglingEnd end_)
  else none

/-- The graph without a node and every relationship that touches it. -/
def withoutNode (graph : PlainGraph) (id : NodeId) : PlainGraph :=
  { graph with
    nodes := graph.nodes.erase id
    relationships := graph.relationships.filterValues (fun r => !r.touches id) }

/-- The answer to an operation and the graph after it. -/
def apply (graph : PlainGraph) : StoreOperation → StoreAnswer × PlainGraph
  | .createNode labels properties =>
    let id := graph.nextNodeId
    (.madeNode id,
      { graph with
        nodes := graph.nodes.insert id ⟨id, SortedSet.ofList labels, properties⟩
        nextNodeId := nextId id })
  | .createRelationship type start end_ properties =>
    match graph.danglingEnd? start end_ with
    | some error => (.madeRelationship (.error error), graph)
    | none =>
      let id := graph.nextRelationshipId
      (.madeRelationship (.ok id),
        { graph with
          relationships := graph.relationships.insert id ⟨id, type, start, end_, properties⟩
          nextRelationshipId := nextId id })
  | .setProperties id properties =>
    match graph.nodes.find? id with
    | none => (.setProperties (.error (.nodeNotFound id)), graph)
    | some node =>
      (.setProperties (.ok node.properties),
        { graph with nodes := graph.nodes.insert id { node with properties } })
  | .deleteNode id =>
    match graph.nodes.find? id with
    | none => (.deletedNode none, graph)
    | some node => (.deletedNode (some node), graph.withoutNode id)
  | .deleteRelationship id =>
    (.deletedRelationship (graph.relationships.find? id),
      { graph with relationships := graph.relationships.erase id })
  | .restoreNode node =>
    (.restoredNode,
      { graph with
        nodes := graph.nodes.insert node.id node
        nextNodeId := max graph.nextNodeId (nextId node.id) })
  | .restoreRelationship relationship =>
    match graph.danglingEnd? relationship.start relationship.end with
    | some error => (.restoredRelationship (.error error), graph)
    | none =>
      (.restoredRelationship (.ok ()),
        { graph with
          relationships := graph.relationships.insert relationship.id relationship
          nextRelationshipId := max graph.nextRelationshipId (nextId relationship.id) })
  | .reserve nextNode nextRelationship =>
    (.reserved,
      { graph with
        nextNodeId := max graph.nextNodeId nextNode
        nextRelationshipId := max graph.nextRelationshipId nextRelationship })

/-- The answers to operations in order, and the graph after all of them. -/
def run (graph : PlainGraph) : List StoreOperation → List StoreAnswer × PlainGraph
  | [] => ([], graph)
  | operation :: rest =>
    let (answer, graph) := graph.apply operation
    let (answers, graph) := graph.run rest
    (answer :: answers, graph)

end PlainGraph

namespace Store

/-- The store without its indices. -/
def plain (store : Store) : PlainGraph :=
  ⟨store.nodes, store.relationships, store.nextNodeId, store.nextRelationshipId⟩

/-! ## §2. Questions. -/

/-- Every question has the same answer for the store and for the graph. -/
structure LooksLike (store : Store) (graph : PlainGraph) : Prop where
  node? : ∀ id, store.node? id = graph.nodes.find? id
  relationship? : ∀ id, store.relationship? id = graph.relationships.find? id
  allNodes : store.allNodes = graph.allNodes
  allRelationships : store.allRelationships = graph.allRelationships
  leaving : ∀ id, store.leaving id = graph.leaving id
  entering : ∀ id, store.entering id = graph.entering id
  labelled : ∀ label, store.labelled label = graph.labelled label
  nodeCount : store.nodeCount = graph.allNodes.length
  relationshipCount : store.relationshipCount = graph.allRelationships.length
  nextNodeId : store.nextNodeId = graph.nextNodeId
  nextRelationshipId : store.nextRelationshipId = graph.nextRelationshipId

/-- Look-ups through the indices list their ids in ascending order, each
once. -/
structure LooksUpInOrder (store : Store) : Prop where
  leaving : ∀ id, (store.leaving id).Pairwise (fun a b => a.id < b.id)
  entering : ∀ id, (store.entering id).Pairwise (fun a b => a.id < b.id)
  labelled : ∀ label, (store.labelled label).Pairwise (fun a b => a.id < b.id)

variable {store : Store}

/-- An exact index lists what it should and nothing else. -/
theorem Coherent.mem_byStart_iff (h : Coherent store) {id : RelationshipId} {key : NodeId} :
    id ∈ idsUnder store.byStart key ↔ ∃ r, store.relationship? id = some r ∧ r.start = key :=
  ⟨h.of_byStart, fun ⟨_, hr, hstart⟩ => hstart ▸ h.byStart_of hr⟩

theorem Coherent.mem_byEnd_iff (h : Coherent store) {id : RelationshipId} {key : NodeId} :
    id ∈ idsUnder store.byEnd key ↔ ∃ r, store.relationship? id = some r ∧ r.end = key :=
  ⟨h.of_byEnd, fun ⟨_, hr, hend⟩ => hend ▸ h.byEnd_of hr⟩

theorem Coherent.mem_byLabel_iff (h : Coherent store) {id : NodeId} {label : Label} :
    id ∈ idsUnder store.byLabel label
      ↔ ∃ node, store.node? id = some node ∧ node.hasLabel label = true :=
  ⟨h.of_byLabel, fun ⟨_, hnode, hlabel⟩ => h.byLabel_of hnode hlabel⟩

theorem Coherent.leaving_eq (h : Coherent store) (id : NodeId) :
    store.leaving id = store.allRelationships.filter (fun r => r.startsFrom id) := by
  refine SortedMap.filterMap_find?_eq_filter_values (pairwise_idsUnder _ _) (fun rid => ?_)
  simp only [Relationship.startsFrom, beq_iff_eq]
  exact h.mem_byStart_iff

theorem Coherent.entering_eq (h : Coherent store) (id : NodeId) :
    store.entering id = store.allRelationships.filter (fun r => r.endsAt id) := by
  refine SortedMap.filterMap_find?_eq_filter_values (pairwise_idsUnder _ _) (fun rid => ?_)
  simp only [Relationship.endsAt, beq_iff_eq]
  exact h.mem_byEnd_iff

theorem Coherent.labelled_eq (h : Coherent store) (label : Label) :
    store.labelled label = store.allNodes.filter (fun node => node.hasLabel label) :=
  SortedMap.filterMap_find?_eq_filter_values (pairwise_idsUnder _ _) (fun _ => h.mem_byLabel_iff)

theorem Coherent.looksLike_plain (h : Coherent store) : store.LooksLike store.plain where
  node? _ := rfl
  relationship? _ := rfl
  allNodes := rfl
  allRelationships := rfl
  leaving := h.leaving_eq
  entering := h.entering_eq
  labelled := h.labelled_eq
  nodeCount := SortedMap.size_eq_length_values store.nodes
  relationshipCount := SortedMap.size_eq_length_values store.relationships
  nextNodeId := rfl
  nextRelationshipId := rfl

/-- Values that stand under their own ids ascend by id. -/
theorem pairwise_values_of_keyed {α : Type} {map : SortedMap Nat α} {idOf : α → Nat}
    (h : ∀ {id value}, map.find? id = some value → idOf value = id) :
    map.values.Pairwise (fun a b => idOf a < idOf b) := by
  have hkeyed : ∀ entry ∈ map.entries, idOf entry.2 = entry.1 := fun entry hentry =>
    h (SortedMap.find?_eq_some_iff.2 hentry)
  rw [SortedMap.values, List.pairwise_map]
  refine map.ascending.imp_of_mem (fun ha hb hlt => ?_)
  rw [hkeyed _ ha, hkeyed _ hb]
  exact Nat.compare_eq_lt.1 hlt

/-- The nodes of a store are those found under their own ids. -/
theorem Integral.mem_allNodes_iff (h : Integral store) {node : Node} :
    node ∈ store.allNodes ↔ store.node? node.id = some node := by
  unfold allNodes
  rw [SortedMap.mem_values_iff]
  constructor
  · intro hmem
    obtain ⟨id, hid⟩ := hmem
    have hnode : node.id = id := h.node_id hid
    rw [hnode]
    exact hid
  · intro hnode
    exact ⟨node.id, hnode⟩

theorem Integral.mem_allRelationships_iff (h : Integral store) {r : Relationship} :
    r ∈ store.allRelationships ↔ store.relationship? r.id = some r := by
  unfold allRelationships
  rw [SortedMap.mem_values_iff]
  constructor
  · intro hmem
    obtain ⟨id, hid⟩ := hmem
    have hr : r.id = id := h.relationship_id hid
    rw [hr]
    exact hid
  · intro hr
    exact ⟨r.id, hr⟩

theorem Integral.pairwise_allNodes (h : Integral store) :
    store.allNodes.Pairwise (fun a b => a.id < b.id) :=
  pairwise_values_of_keyed h.node_id

theorem Integral.pairwise_allRelationships (h : Integral store) :
    store.allRelationships.Pairwise (fun a b => a.id < b.id) :=
  pairwise_values_of_keyed h.relationship_id

theorem Coherent.looksUpInOrder (h : Coherent store) : store.LooksUpInOrder where
  leaving id := h.leaving_eq id ▸ h.pairwise_allRelationships.filter _
  entering id := h.entering_eq id ▸ h.pairwise_allRelationships.filter _
  labelled label := h.labelled_eq label ▸ h.pairwise_allNodes.filter _

/-! ## §3. Stores that hold the same. -/

/-- Every question has the same answer for both stores. -/
structure SameAs (left right : Store) : Prop where
  node? : ∀ id, left.node? id = right.node? id
  relationship? : ∀ id, left.relationship? id = right.relationship? id
  allNodes : left.allNodes = right.allNodes
  allRelationships : left.allRelationships = right.allRelationships
  leaving : ∀ id, left.leaving id = right.leaving id
  entering : ∀ id, left.entering id = right.entering id
  labelled : ∀ label, left.labelled label = right.labelled label
  nodeCount : left.nodeCount = right.nodeCount
  relationshipCount : left.relationshipCount = right.relationshipCount
  nextNodeId : left.nextNodeId = right.nextNodeId
  nextRelationshipId : left.nextRelationshipId = right.nextRelationshipId

section

variable {left right : Store}

/-- **Without indices the same, so with exact ones too.** -/
theorem Coherent.sameAs (hleft : Coherent left) (hright : Coherent right)
    (h : left.plain = right.plain) : left.SameAs right := by
  have hl := hleft.looksLike_plain
  have hr := hright.looksLike_plain
  rw [h] at hl
  exact
    { node? := fun id => (hl.node? id).trans (hr.node? id).symm
      relationship? := fun id => (hl.relationship? id).trans (hr.relationship? id).symm
      allNodes := hl.allNodes.trans hr.allNodes.symm
      allRelationships := hl.allRelationships.trans hr.allRelationships.symm
      leaving := fun id => (hl.leaving id).trans (hr.leaving id).symm
      entering := fun id => (hl.entering id).trans (hr.entering id).symm
      labelled := fun label => (hl.labelled label).trans (hr.labelled label).symm
      nodeCount := hl.nodeCount.trans hr.nodeCount.symm
      relationshipCount := hl.relationshipCount.trans hr.relationshipCount.symm
      nextNodeId := hl.nextNodeId.trans hr.nextNodeId.symm
      nextRelationshipId := hl.nextRelationshipId.trans hr.nextRelationshipId.symm }

theorem Integral.node?_eq_some_iff (h : Integral store) {id : NodeId} {node : Node} :
    store.node? id = some node ↔ node ∈ store.allNodes ∧ node.id = id := by
  rw [h.mem_allNodes_iff]
  constructor
  · intro hnode
    have hid : node.id = id := h.node_id hnode
    exact ⟨hid ▸ hnode, hid⟩
  · rintro ⟨hnode, rfl⟩
    exact hnode

theorem Integral.relationship?_eq_some_iff (h : Integral store) {id : RelationshipId}
    {r : Relationship} :
    store.relationship? id = some r ↔ r ∈ store.allRelationships ∧ r.id = id := by
  rw [h.mem_allRelationships_iff]
  constructor
  · intro hr
    have hid : r.id = id := h.relationship_id hr
    exact ⟨hid ▸ hr, hid⟩
  · rintro ⟨hr, rfl⟩
    exact hr

/-- The entities and the counters are all there is to a store without its
indices. -/
theorem Integral.plain_eq (hleft : Integral left) (hright : Integral right)
    (hnodes : left.allNodes = right.allNodes)
    (hrelationships : left.allRelationships = right.allRelationships)
    (hnextNode : left.nextNodeId = right.nextNodeId)
    (hnextRelationship : left.nextRelationshipId = right.nextRelationshipId) :
    left.plain = right.plain := by
  have hnodesEq : left.nodes = right.nodes := by
    apply SortedMap.ext_find?
    intro id
    rw [Option.ext_iff]
    intro node
    exact hleft.node?_eq_some_iff.trans (hnodes ▸ hright.node?_eq_some_iff.symm)
  have hrelationshipsEq : left.relationships = right.relationships := by
    apply SortedMap.ext_find?
    intro id
    rw [Option.ext_iff]
    intro r
    exact hleft.relationship?_eq_some_iff.trans
      (hrelationships ▸ hright.relationship?_eq_some_iff.symm)
  rw [plain, plain, hnodesEq, hrelationshipsEq, hnextNode, hnextRelationship]

end

/-! ## §4. One operation. -/

/-- In a coherent store the relationships listed at a node are those that
touch it. -/
theorem Coherent.listedAt_iff (h : Coherent store) {node : NodeId} {id : RelationshipId}
    {r : Relationship} (hr : store.relationship? id = some r) :
    store.ListedAt node id ↔ r.touches node = true := by
  have hstart : id ∈ idsUnder store.byStart node ↔ r.start = node := by
    simp [h.mem_byStart_iff, hr]
  have hend : id ∈ idsUnder store.byEnd node ↔ r.end = node := by
    simp [h.mem_byEnd_iff, hr]
  rw [ListedAt, hstart, hend, Relationship.touches, Relationship.startsFrom, Relationship.endsAt,
    Bool.or_eq_true, beq_iff_eq, beq_iff_eq]

theorem Coherent.relationships_deleteNode (h : Coherent store) {gone : NodeId} {node : Node}
    (hgone : store.node? gone = some node) :
    (store.deleteNode gone).2.relationships
      = store.relationships.filterValues (fun r => !r.touches gone) := by
  refine SortedMap.eq_filterValues (fun id r => ?_)
  have hiff : (store.deleteNode gone).2.relationships.find? id = some r
      ↔ store.relationship? id = some r ∧ ¬ store.ListedAt gone id :=
    relationship?_deleteNode hgone
  refine hiff.trans (and_congr_right (fun hr => ?_))
  -- the index lists a relationship exactly if a look at its ends would find it
  rw [h.listedAt_iff hr, Bool.not_eq_true, Bool.not_eq_true']

/-- An operation that fails hands back the store it was given. -/
theorem apply_of_failed {operation : StoreOperation}
    (h : (store.apply operation).1.Failed) : (store.apply operation).2 = store := by
  cases operation with
  | createNode labels properties => exact h.elim
  | createRelationship type start end_ properties =>
    revert h
    rw [Store.apply]
    cases store.createRelationship type start end_ properties with
    | error error => exact fun _ => rfl
    | ok result => exact False.elim
  | setProperties id properties =>
    revert h
    rw [Store.apply]
    cases store.setProperties id properties with
    | error error => exact fun _ => rfl
    | ok result => exact False.elim
  | deleteNode id =>
    cases hnode : store.node? id with
    | none => rw [Store.apply, deleteNode_of_node?_none hnode]
    | some node =>
      rw [Store.apply, deleteNode_of_node? hnode] at h
      exact h.elim
  | deleteRelationship id =>
    cases hr : store.relationship? id with
    | none => rw [Store.apply, deleteRelationship, hr]
    | some r =>
      rw [Store.apply, deleteRelationship, hr] at h
      exact h.elim
  | restoreNode node => exact h.elim
  | restoreRelationship relationship =>
    revert h
    rw [Store.apply]
    cases store.restoreRelationship relationship with
    | error error => exact fun _ => rfl
    | ok after => exact False.elim
  | reserve nextNode nextRelationship => exact h.elim

/-! ## §5. A run. -/

end Store

end PropertyGraph
