/-
  PropertyGraph.Proofs.Files.Rebuild
  ──────────────────────────────────
  **A STORE IS REBUILT FROM ITS RECORDS.**

  Loading restores one node after the other, then the relationships, and
  raises the counters in the end.  Relationships are restored where both of
  their nodes are there; of the others only the ids are kept (`besides_eq`).
  From the records of one store in order this gives the same maps with the
  entities in their saved form, and the indices that belong to them
  (`comesBackAs_reloaded`).

  The maps come out right because the records are in order of their ids, so
  each is put at the end; the indices, because the rebuilt store is coherent
  and coherent indices say what a scan of the maps says.
-/
import PropertyGraph.Files.Storage
import PropertyGraph.Proofs.Files.Record
import PropertyGraph.Proofs.Store.Growth

namespace PropertyGraph

/-! ## §1. Maps from their values. -/

/-- Values that know their keys rebuild their map. -/
theorem SortedMap.foldl_insert_values {α : Type} {map : SortedMap Nat α} {idOf : α → Nat}
    (h : ∀ {id value}, map.find? id = some value → idOf value = id) :
    map.values.foldl (fun acc value => acc.insert (idOf value) value) (∅ : SortedMap Nat α)
      = map := by
  have hkeyed : ∀ entry ∈ map.entries, idOf entry.2 = entry.1 := fun entry hentry =>
    h (SortedMap.find?_eq_some_iff.2 hentry)
  -- the induction needs a map that has some entries already
  have hfold : ∀ (entries : List (Nat × α)) (acc : SortedMap Nat α),
      (∀ entry ∈ entries, idOf entry.2 = entry.1) →
      ((entries.map (·.2)).foldl (fun acc value => acc.insert (idOf value) value) acc).entries
        = entries.foldl (fun entries pair => SortedEntries.insert pair.1 pair.2 entries)
            acc.entries := by
    intro entries
    induction entries with
    | nil => intro acc _; rfl
    | cons entry rest ih =>
      intro acc hentries
      rw [List.map_cons, List.foldl_cons, List.foldl_cons, hentries entry List.mem_cons_self]
      exact ih _ (fun other hother => hentries other (List.mem_cons_of_mem _ hother))
  have hentries := (hfold map.entries ∅ hkeyed).trans
    (SortedEntries.ofList_of_ascending map.ascending)
  -- equal entries make equal maps
  cases hmap : map.values.foldl (fun acc value => acc.insert (idOf value) value)
    (∅ : SortedMap Nat α) with
  | mk entries ascending =>
    have heq : entries = map.entries := by
      rw [← hentries]
      exact (congrArg SortedMap.entries hmap).symm
    cases map
    subst heq
    rfl

namespace Store

variable {store : Store}

/-! ## §2. Restoring one after the other. -/

theorem nodes_foldl_restoreNode (nodes : List Node) : ∀ store : Store,
    (nodes.foldl restoreNode store).nodes
        = nodes.foldl (fun map node => map.insert node.id node) store.nodes
      ∧ (nodes.foldl restoreNode store).relationships = store.relationships := by
  induction nodes with
  | nil => intro store; exact ⟨rfl, rfl⟩
  | cons node rest ih =>
    intro store
    exact ih (store.restoreNode node)

/-- The counter after restoring nodes is no further than a bound that is past
their ids. -/
theorem nextNodeId_foldl_restoreNode {bound : Nat} (nodes : List Node) : ∀ store : Store,
    store.nextNodeId ≤ bound → (∀ node ∈ nodes, node.id < bound) →
    (nodes.foldl restoreNode store).nextNodeId ≤ bound
      ∧ (nodes.foldl restoreNode store).nextRelationshipId = store.nextRelationshipId := by
  induction nodes with
  | nil => intro store hstore _; exact ⟨hstore, rfl⟩
  | cons node rest ih =>
    intro store hstore hnodes
    refine ih (store.restoreNode node) ?_ (fun other hother =>
      hnodes other (List.mem_cons_of_mem node hother))
    exact Nat.max_le.2 ⟨hstore, Nat.le_trans (nextId_le _) (hnodes node List.mem_cons_self)⟩

/-- The counter does not go back. -/
theorem le_nextNodeId_foldl_restoreNode (nodes : List Node) : ∀ store : Store,
    store.nextNodeId ≤ (nodes.foldl restoreNode store).nextNodeId := by
  induction nodes with
  | nil => intro store; exact Nat.le_refl _
  | cons node rest ih =>
    intro store
    exact Nat.le_trans (Nat.le_max_left _ _) (ih (store.restoreNode node))

theorem coherent_foldl_restoreNode (nodes : List Node) : ∀ store : Store, Coherent store →
    nodes.Pairwise (fun a b => a.id < b.id) → (∀ node ∈ nodes, store.node? node.id = none) →
    Coherent (nodes.foldl restoreNode store) := by
  induction nodes with
  | nil => intro store hstore _ _; exact hstore
  | cons node rest ih =>
    intro store hstore hordered hfree
    obtain ⟨hlt, hrest⟩ := List.pairwise_cons.1 hordered
    have hnext : Coherent (store.restoreNode node) :=
      hstore.entersNode (entersNode_restoreNode store node) (hfree node List.mem_cons_self)
    refine ih (store.restoreNode node) hnext hrest (fun other hother => ?_)
    rw [(entersNode_restoreNode store node).node?, if_neg (Nat.ne_of_gt (hlt other hother))]
    exact hfree other (List.mem_cons_of_mem node hother)

/-- Are both ends of a relationship nodes of the store? -/
def hasEnds (store : Store) (r : Relationship) : Bool :=
  store.hasNode r.start && store.hasNode r.end

theorem hasEnds_eq_true_iff {r : Relationship} : store.hasEnds r = true
    ↔ (∃ node, store.node? r.start = some node) ∧ ∃ node, store.node? r.end = some node := by
  rw [hasEnds, Bool.and_eq_true, hasNode_eq_true_iff, hasNode_eq_true_iff]

theorem danglingEnd?_of_hasEnds {r : Relationship} (h : store.hasEnds r = true) :
    store.danglingEnd? r.start r.end = none :=
  danglingEnd?_eq_none_iff.2 (Bool.and_eq_true_iff.1 h)

/-- A relationship between nodes of the store is restored. -/
theorem restoreOrReserve_of_hasEnds {r : Relationship} (h : store.hasEnds r = true) :
    ∃ after, store.restoreRelationship r = .ok after ∧ store.restoreOrReserve r = after
      ∧ after.nodes = store.nodes
      ∧ after.relationships = store.relationships.insert r.id r
      ∧ after.nextNodeId = store.nextNodeId
      ∧ after.nextRelationshipId = max store.nextRelationshipId (nextId r.id) := by
  unfold restoreOrReserve restoreRelationship
  rw [danglingEnd?_of_hasEnds h]
  exact ⟨_, rfl, rfl, rfl, rfl, rfl, rfl⟩

/-- Of any other relationship only the id is kept. -/
theorem restoreOrReserve_of_not_hasEnds {r : Relationship} (h : store.hasEnds r = false) :
    store.restoreOrReserve r = store.reserve 1 (nextId r.id) := by
  unfold restoreOrReserve restoreRelationship
  cases hdangling : store.danglingEnd? r.start r.end with
  | some error => rfl
  | none =>
    have hends := Bool.and_eq_true_iff.2 (danglingEnd?_eq_none_iff.1 hdangling)
    rw [← hasEnds, h] at hends
    cases hends

theorem hasEnds_congr {left right : Store} (h : left.nodes = right.nodes) :
    left.hasEnds = right.hasEnds := by
  funext r
  unfold hasEnds hasNode
  rw [h]

/-- **Relationships one after the other.**  Those between nodes of the store
are restored, and no id of the others is handed out again. -/
theorem foldl_restoreOrReserve {bound : Nat} (rs : List Relationship) : ∀ store : Store,
    Coherent store → rs.Pairwise (fun a b => a.id < b.id) →
    (∀ r ∈ rs, store.relationship? r.id = none) → 0 < store.nextNodeId →
    store.nextRelationshipId ≤ bound → (∀ r ∈ rs, r.id < bound) →
    Coherent (rs.foldl restoreOrReserve store)
      ∧ (rs.foldl restoreOrReserve store).nodes = store.nodes
      ∧ (rs.foldl restoreOrReserve store).relationships
          = (rs.filter store.hasEnds).foldl (fun map r => map.insert r.id r) store.relationships
      ∧ (rs.foldl restoreOrReserve store).nextNodeId = store.nextNodeId
      ∧ (rs.foldl restoreOrReserve store).nextRelationshipId ≤ bound := by
  induction rs with
  | nil => intro store hstore _ _ _ hbound _; exact ⟨hstore, rfl, rfl, rfl, hbound⟩
  | cons r rest ih =>
    intro store hstore hordered hfree hpos hbound hids
    obtain ⟨hlt, hrest⟩ := List.pairwise_cons.1 hordered
    have hids' := fun other hother => hids other (List.mem_cons_of_mem r hother)
    have hnext : max store.nextRelationshipId (nextId r.id) ≤ bound :=
      Nat.max_le.2 ⟨hbound, Nat.le_trans (nextId_le _) (hids r List.mem_cons_self)⟩
    cases hends : store.hasEnds r with
    | true =>
      obtain ⟨after, hrestore, hafter, hnodes, hrelationships, hnextNode, hcounter⟩ :=
        restoreOrReserve_of_hasEnds hends
      have henters := entersRelationship_restoreRelationship hrestore
      have hcoherent := hstore.entersRelationship henters (hfree r List.mem_cons_self)
      -- later relationships have greater ids, so that none of them is taken yet
      have hfree' : ∀ other ∈ rest, after.relationship? other.id = none := by
        intro other hother
        rw [henters.relationship?, if_neg (Nat.ne_of_gt (hlt other hother))]
        exact hfree other (List.mem_cons_of_mem r hother)
      obtain ⟨h₁, h₂, h₃, h₄, h₅⟩ := ih after hcoherent hrest hfree' (hnextNode ▸ hpos)
        (hcounter ▸ hnext) hids'
      rw [hasEnds_congr hnodes] at h₃
      rw [List.foldl_cons, hafter, List.filter_cons_of_pos hends, List.foldl_cons,
        ← hrelationships]
      exact ⟨h₁, h₂.trans hnodes, h₃, h₄.trans hnextNode, h₅⟩
    | false =>
      obtain ⟨h₁, h₂, h₃, h₄, h₅⟩ := ih (store.reserve 1 (nextId r.id)) (hstore.reserve _ _) hrest
        (fun other hother => hfree other (List.mem_cons_of_mem r hother))
        (Nat.lt_of_lt_of_le hpos (Nat.le_max_left _ _)) hnext hids'
      rw [hasEnds_congr (rfl : (store.reserve 1 (nextId r.id)).nodes = store.nodes)] at h₃
      have hcounter : max store.nextNodeId 1 = store.nextNodeId := Nat.max_eq_left hpos
      rw [List.foldl_cons, restoreOrReserve_of_not_hasEnds hends,
        List.filter_cons_of_neg (by rw [hends]; exact Bool.false_ne_true)]
      exact ⟨h₁, h₂, h₃, h₄.trans hcounter, h₅⟩

/-! ## §3. The nodes of one store and the relationships of another. -/

/-- The store that the nodes of one store and the relationships of another are
read as, from their records. -/
def besides (relationships nodes : Store) : Store :=
  ofCollections ⟨nodes.allNodes.map Node.savedForm, some nodes.nextNodeId⟩
    ⟨relationships.allRelationships.map Relationship.savedForm,
      some relationships.nextRelationshipId⟩

theorem find?_savedNodes (h : Integral store) {id : NodeId} {node : Node}
    (hnode : (store.nodes.mapValues Node.savedForm).find? id = some node) : node.id = id := by
  rw [SortedMap.find?_mapValues] at hnode
  obtain ⟨old, hold, rfl⟩ := Option.map_eq_some_iff.1 hnode
  have hid : old.id = id := h.node_id hold
  exact hid

theorem find?_savedRelationships (h : Integral store) {p : Relationship → Bool}
    {id : RelationshipId} {r : Relationship}
    (hr : ((store.relationships.filterValues p).mapValues Relationship.savedForm).find? id
      = some r) : r.id = id := by
  rw [SortedMap.find?_mapValues] at hr
  obtain ⟨old, hold, rfl⟩ := Option.map_eq_some_iff.1 hr
  rw [SortedMap.find?_filterValues, Option.filter_eq_some_iff] at hold
  have hid : old.id = id := h.relationship_id hold.1
  exact hid

/-- The nodes of a store, restored into an empty one. -/
theorem foldl_restoreNode_savedNodes (h : Integral store) (hstore : store.IdsFit) :
    ∃ restored, (store.allNodes.map Node.savedForm).foldl restoreNode empty = restored
      ∧ Coherent restored ∧ restored.nodes = store.nodes.mapValues Node.savedForm
      ∧ restored.relationships = ∅
      ∧ 0 < restored.nextNodeId ∧ restored.nextNodeId ≤ store.nextNodeId
      ∧ restored.nextRelationshipId = 1 := by
  have hvalues : (store.nodes.mapValues Node.savedForm).values
      = store.allNodes.map Node.savedForm := SortedMap.values_mapValues _ _
  have hordered : (store.allNodes.map Node.savedForm).Pairwise (fun a b => a.id < b.id) :=
    List.pairwise_map.2 h.pairwise_allNodes
  have hids : ∀ node ∈ store.allNodes.map Node.savedForm, node.id < store.nextNodeId := by
    intro node hnode
    obtain ⟨old, hold, rfl⟩ := List.mem_map.1 hnode
    have hlt : old.id < store.nextNodeId := hstore.node_lt old hold
    exact hlt
  obtain ⟨hnodes, hrelationships⟩ :=
    nodes_foldl_restoreNode (store.allNodes.map Node.savedForm) empty
  obtain ⟨hnextNode, hnextRelationship⟩ :=
    nextNodeId_foldl_restoreNode (store.allNodes.map Node.savedForm) empty
      hstore.nextNodeId_pos hids
  refine ⟨_, rfl, ?_, ?_, hrelationships, ?_, hnextNode, hnextRelationship⟩
  · exact coherent_foldl_restoreNode _ empty coherent_empty hordered (fun _ _ => rfl)
  · rw [hnodes, ← hvalues]
    exact SortedMap.foldl_insert_values (find?_savedNodes h)
  · exact le_nextNodeId_foldl_restoreNode _ empty

/-- **The maps and counters of such a store**, and that its indices are exact:
every node, the relationships between these nodes, and both counters. -/
theorem besides_eq {relationships nodes : Store} (hr : Integral relationships)
    (hn : Integral nodes) (hrids : relationships.IdsFit) (hnids : nodes.IdsFit) :
    Coherent (relationships.besides nodes)
      ∧ (relationships.besides nodes).nodes = nodes.nodes.mapValues Node.savedForm
      ∧ (relationships.besides nodes).relationships
          = (relationships.relationships.filterValues nodes.hasEnds).mapValues
              Relationship.savedForm
      ∧ (relationships.besides nodes).nextNodeId = nodes.nextNodeId
      ∧ (relationships.besides nodes).nextRelationshipId
          = relationships.nextRelationshipId := by
  -- first the nodes, into an empty store
  obtain ⟨restored, hrestored, hcoherent, hnodes, hnone, hnextPos, hnextNode, hnextOne⟩ :=
    foldl_restoreNode_savedNodes hn hnids
  have hends : ∀ r, restored.hasEnds (Relationship.savedForm r) = nodes.hasEnds r := by
    intro r
    unfold hasEnds hasNode SortedMap.contains
    rw [hnodes, SortedMap.find?_mapValues, SortedMap.find?_mapValues, Option.isSome_map,
      Option.isSome_map]
    rfl
  have hkept : (relationships.allRelationships.map Relationship.savedForm).filter restored.hasEnds
      = ((relationships.relationships.filterValues nodes.hasEnds).mapValues
          Relationship.savedForm).values := by
    rw [SortedMap.values_mapValues, SortedMap.values_filterValues, List.filter_map]
    congr 2
    exact funext hends
  have hids : ∀ r ∈ relationships.allRelationships.map Relationship.savedForm,
      r.id < relationships.nextRelationshipId := by
    intro r hmem
    obtain ⟨old, hold, rfl⟩ := List.mem_map.1 hmem
    have hlt : old.id < relationships.nextRelationshipId := hrids.relationship_lt old hold
    exact hlt
  have hfree : ∀ r ∈ relationships.allRelationships.map Relationship.savedForm,
      restored.relationship? r.id = none := by
    intro r _
    unfold Store.relationship?
    rw [hnone]
    rfl
  -- then the relationships between them
  obtain ⟨hcoherent', hnodes', hrelationships', hnextNode', hnextRelationship'⟩ :=
    foldl_restoreOrReserve (relationships.allRelationships.map Relationship.savedForm) restored
      hcoherent (List.pairwise_map.2 hr.pairwise_allRelationships) hfree hnextPos
      (hnextOne ▸ hrids.nextRelationshipId_pos) hids
  unfold besides ofCollections
  rw [hrestored]
  -- and the counters in the end
  refine ⟨hcoherent'.reserve _ _, hnodes'.trans hnodes, ?_, ?_, ?_⟩
  · refine hrelationships'.trans ?_
    rw [hnone, hkept]
    exact SortedMap.foldl_insert_values (find?_savedRelationships hr)
  · exact Nat.max_eq_right (hnextNode' ▸ hnextNode)
  · exact Nat.max_eq_right hnextRelationship'

/-! ## §4. The store of its own records. -/

/-- The store that the records of `store` are read as. -/
def reloaded (store : Store) : Store :=
  ofCollections ⟨store.allNodes.map Node.savedForm, some store.nextNodeId⟩
    ⟨store.allRelationships.map Relationship.savedForm, some store.nextRelationshipId⟩

/-- A store has the ends of its own relationships. -/
theorem Integral.filterValues_hasEnds (h : Integral store) :
    store.relationships.filterValues store.hasEnds = store.relationships := by
  refine (SortedMap.eq_filterValues (fun id r => ⟨fun hr => ⟨hr, ?_⟩, And.left⟩)).symm
  exact hasEnds_eq_true_iff.2 ⟨h.start_exists hr, h.end_exists hr⟩

/-- **The maps and counters of a reloaded store**, and that its indices are
exact. -/
theorem reloaded_eq (h : Integral store) (hids : store.IdsFit) :
    Coherent store.reloaded
      ∧ store.reloaded.nodes = store.nodes.mapValues Node.savedForm
      ∧ store.reloaded.relationships = store.relationships.mapValues Relationship.savedForm
      ∧ store.reloaded.nextNodeId = store.nextNodeId
      ∧ store.reloaded.nextRelationshipId = store.nextRelationshipId := by
  obtain ⟨hcoherent, hnodes, hrelationships, hcounters⟩ := besides_eq h h hids hids
  rw [h.filterValues_hasEnds] at hrelationships
  exact ⟨hcoherent, hnodes, hrelationships, hcounters⟩

/-- Every question about `loaded` has the answer of `store`, with entities in
their saved form. -/
structure ComesBackAs (store loaded : Store) : Prop where
  node? : ∀ id, loaded.node? id = (store.node? id).map Node.savedForm
  relationship? : ∀ id,
    loaded.relationship? id = (store.relationship? id).map Relationship.savedForm
  allNodes : loaded.allNodes = store.allNodes.map Node.savedForm
  allRelationships : loaded.allRelationships
    = store.allRelationships.map Relationship.savedForm
  leaving : ∀ id, loaded.leaving id = (store.leaving id).map Relationship.savedForm
  entering : ∀ id, loaded.entering id = (store.entering id).map Relationship.savedForm
  labelled : ∀ label, loaded.labelled label = (store.labelled label).map Node.savedForm
  nextNodeId : loaded.nextNodeId = store.nextNodeId
  nextRelationshipId : loaded.nextRelationshipId = store.nextRelationshipId

/-- **A store comes back from its own records.** -/
theorem Coherent.comesBackAs_reloaded (h : Coherent store) (hids : store.IdsFit) :
    store.ComesBackAs store.reloaded := by
  obtain ⟨hcoherent, hnodes, hrelationships, hnextNode, hnextRelationship⟩ :=
    reloaded_eq h.toIntegral hids
  have hallNodes : store.reloaded.allNodes = store.allNodes.map Node.savedForm := by
    unfold Store.allNodes
    rw [hnodes, SortedMap.values_mapValues]
  have hallRelationships : store.reloaded.allRelationships
      = store.allRelationships.map Relationship.savedForm := by
    unfold Store.allRelationships
    rw [hrelationships, SortedMap.values_mapValues]
  exact
    { node? := fun id => by
        unfold Store.node?
        rw [hnodes, SortedMap.find?_mapValues]
      relationship? := fun id => by
        unfold Store.relationship?
        rw [hrelationships, SortedMap.find?_mapValues]
      allNodes := hallNodes
      allRelationships := hallRelationships
      leaving := fun id => by
        rw [hcoherent.leaving_eq, h.leaving_eq, hallRelationships, List.filter_map]
        rfl
      entering := fun id => by
        rw [hcoherent.entering_eq, h.entering_eq, hallRelationships, List.filter_map]
        rfl
      labelled := fun label => by
        rw [hcoherent.labelled_eq, h.labelled_eq, hallNodes, List.filter_map]
        rfl
      nextNodeId := hnextNode
      nextRelationshipId := hnextRelationship }

end Store

end PropertyGraph
