/-
  PropertyGraph.Proofs.Files.Latest
  ─────────────────────────────────
  **THE LAST RECORD OF AN ID COUNTS.**

  The records of data files may come in any order and repeat ids.  Of the
  nodes of one id the last stands in the store, and of the relationships the
  last whose two nodes have records (`restorable`):

      node?_ofCollections, relationship?_ofCollections

  The indices are not as forgetful.  They list an id wherever any of its
  records has put it (`mem_byLabel_ofCollections` and the other two).
-/
import PropertyGraph.Proofs.Files.Rebuild

namespace PropertyGraph

/-! ## §1. The last of an id. -/

section

variable {ρ : Type} {idOf : ρ → Nat} {records : List ρ} {record last : ρ} {id : Nat}

/-- The last record of an id. -/
def latest (idOf : ρ → Nat) (records : List ρ) (id : Nat) : Option ρ :=
  records.reverse.find? (fun record => idOf record == id)

theorem latest_cons (idOf : ρ → Nat) (record : ρ) (records : List ρ) (id : Nat) :
    latest idOf (record :: records) id
      = (latest idOf records id).or (if id = idOf record then some record else none) := by
  unfold latest
  rw [List.reverse_cons, List.find?_append, List.find?_singleton]
  simp only [beq_iff_eq, eq_comm (a := id)]

theorem mem_of_latest (h : latest idOf records id = some last) :
    last ∈ records ∧ idOf last = id := by
  have hid : (idOf last == id) = true :=
    List.find?_some (p := fun record => idOf record == id) h
  exact ⟨List.mem_reverse.1 (List.mem_of_find?_eq_some h), beq_iff_eq.1 hid⟩

theorem exists_latest (h : record ∈ records) :
    ∃ last, latest idOf records (idOf record) = some last := by
  rw [← Option.isSome_iff_exists]
  unfold latest
  rw [List.find?_isSome]
  exact ⟨record, List.mem_reverse.2 h, beq_iff_eq.2 rfl⟩

end

/-- Has a node of this id a record? -/
def hasRecord (nodes : List Node) (id : NodeId) : Bool := nodes.any (fun node => node.id == id)

/-- The relationships whose two nodes have records. -/
def restorable (nodes : List Node) (relationships : List Relationship) : List Relationship :=
  relationships.filter (fun r => hasRecord nodes r.start && hasRecord nodes r.end)

namespace Store

variable {store : Store}

/-! ## §2. Nodes. -/

theorem node?_foldl_restoreNode (nodes : List Node) : ∀ (store : Store) (id : NodeId),
    (nodes.foldl restoreNode store).node? id = (latest Node.id nodes id).or (store.node? id) := by
  induction nodes with
  | nil => exact fun _ _ => rfl
  | cons node rest ih =>
    intro store id
    rw [List.foldl_cons, ih, latest_cons, (entersNode_restoreNode store node).node?,
      Option.or_assoc]
    split <;> rfl

theorem mem_byLabel_foldl_restoreNode (nodes : List Node) :
    ∀ (store : Store) (id : NodeId) (label : Label),
      id ∈ idsUnder (nodes.foldl restoreNode store).byLabel label
        ↔ (∃ node ∈ nodes, node.id = id ∧ node.hasLabel label = true)
          ∨ id ∈ idsUnder store.byLabel label := by
  induction nodes with
  | nil => simp
  | cons node rest ih =>
    intro store id label
    rw [List.foldl_cons, ih, (entersNode_restoreNode store node).byLabel]
    simp only [List.mem_cons, or_and_right, exists_or, exists_eq_left, or_assoc]
    rw [or_left_comm, and_comm, eq_comm (a := id)]

theorem relationships_foldl_restoreNode (nodes : List Node) : ∀ store : Store,
    (nodes.foldl restoreNode store).relationships = store.relationships
      ∧ (nodes.foldl restoreNode store).byStart = store.byStart
      ∧ (nodes.foldl restoreNode store).byEnd = store.byEnd := by
  induction nodes with
  | nil => exact fun _ => ⟨rfl, rfl, rfl⟩
  | cons node rest ih => exact fun store => ih (store.restoreNode node)

/-! ## §3. Relationships. -/

/-- What becomes of a store whose relationships are restored one after the
other. -/
structure RestoresAll (store after : Store) (restored : List Relationship) : Prop where
  nodes : after.nodes = store.nodes
  byLabel : after.byLabel = store.byLabel
  relationship? : ∀ id, after.relationship? id
    = (latest Relationship.id restored id).or (store.relationship? id)
  byStart : ∀ id key, id ∈ idsUnder after.byStart key
    ↔ (∃ r ∈ restored, r.id = id ∧ r.start = key) ∨ id ∈ idsUnder store.byStart key
  byEnd : ∀ id key, id ∈ idsUnder after.byEnd key
    ↔ (∃ r ∈ restored, r.id = id ∧ r.end = key) ∨ id ∈ idsUnder store.byEnd key

theorem restoresAll_foldl (rs : List Relationship) : ∀ store : Store,
    store.RestoresAll (rs.foldl restoreOrReserve store) (rs.filter store.hasEnds) := by
  induction rs with
  | nil =>
    intro store
    exact ⟨rfl, rfl, fun _ => rfl, by simp, by simp⟩
  | cons r rest ih =>
    intro store
    cases hends : store.hasEnds r with
    | true =>
      obtain ⟨after, hrestore, hafter, hnodes, -⟩ := restoreOrReserve_of_hasEnds hends
      have henters := entersRelationship_restoreRelationship hrestore
      have hrest := ih after
      rw [hasEnds_congr hnodes] at hrest
      rw [List.foldl_cons, hafter, List.filter_cons_of_pos hends]
      exact
        { nodes := hrest.nodes.trans hnodes
          byLabel := hrest.byLabel.trans henters.byLabel
          relationship? := fun id => by
            rw [hrest.relationship?, henters.relationship?, latest_cons, Option.or_assoc]
            split <;> rfl
          byStart := fun id key => by
            rw [hrest.byStart, henters.byStart]
            simp only [List.mem_cons, or_and_right, exists_or, exists_eq_left, or_assoc]
            rw [or_left_comm, and_comm, eq_comm (a := id), eq_comm (a := key)]
          byEnd := fun id key => by
            rw [hrest.byEnd, henters.byEnd]
            simp only [List.mem_cons, or_and_right, exists_or, exists_eq_left, or_assoc]
            rw [or_left_comm, and_comm, eq_comm (a := id), eq_comm (a := key)] }
    | false =>
      have hrest := ih (store.reserve 1 (nextId r.id))
      have hsame : (store.reserve 1 (nextId r.id)).hasEnds = store.hasEnds := rfl
      rw [hsame] at hrest
      rw [List.foldl_cons, restoreOrReserve_of_not_hasEnds hends,
        List.filter_cons_of_neg (by rw [hends]; exact Bool.false_ne_true)]
      exact ⟨hrest.nodes, hrest.byLabel, hrest.relationship?, hrest.byStart, hrest.byEnd⟩

/-! ## §4. The store of two files. -/

theorem hasEnds_foldl_restoreNode (nodes : List Node) (r : Relationship) :
    (nodes.foldl restoreNode empty).hasEnds r
      = (hasRecord nodes r.start && hasRecord nodes r.end) := by
  have hnode : ∀ id, (nodes.foldl restoreNode empty).hasNode id = hasRecord nodes id := by
    intro id
    rw [Bool.eq_iff_iff, hasNode_eq_true_iff, hasRecord, List.any_eq_true]
    simp only [node?_foldl_restoreNode, beq_iff_eq]
    constructor
    · rintro ⟨node, hnode⟩
      rcases Option.or_eq_some_iff.1 hnode with hlatest | ⟨-, hold⟩
      · exact ⟨node, mem_of_latest hlatest⟩
      · cases hold
    · rintro ⟨node, hmem, rfl⟩
      obtain ⟨last, hlast⟩ : ∃ last, latest Node.id nodes node.id = some last :=
        exists_latest hmem
      exact ⟨last, by rw [hlast]; rfl⟩
  unfold hasEnds
  rw [hnode, hnode]

variable (nodes : Collection Node) (relationships : Collection Relationship)

theorem restoresAll_ofCollections :
    (nodes.records.foldl restoreNode empty).RestoresAll (ofCollections nodes relationships)
      (restorable nodes.records relationships.records) := by
  have h := restoresAll_foldl relationships.records (nodes.records.foldl restoreNode empty)
  have hends : (nodes.records.foldl restoreNode empty).hasEnds
      = fun r => hasRecord nodes.records r.start && hasRecord nodes.records r.end :=
    funext (hasEnds_foldl_restoreNode nodes.records)
  rw [hends] at h
  exact ⟨h.nodes, h.byLabel, h.relationship?, h.byStart, h.byEnd⟩

/-- **The nodes of a store from files**: of each id the last record. -/
theorem node?_ofCollections (id : NodeId) :
    (ofCollections nodes relationships).node? id = latest Node.id nodes.records id := by
  have h := (restoresAll_ofCollections nodes relationships).nodes
  unfold Store.node?
  rw [h]
  exact (node?_foldl_restoreNode nodes.records empty id).trans Option.or_none

/-- **The relationships of a store from files**: of each id the last record
between nodes that have records. -/
theorem relationship?_ofCollections (id : RelationshipId) :
    (ofCollections nodes relationships).relationship? id
      = latest Relationship.id (restorable nodes.records relationships.records) id := by
  rw [(restoresAll_ofCollections nodes relationships).relationship?]
  unfold Store.relationship?
  rw [(relationships_foldl_restoreNode nodes.records empty).1]
  exact Option.or_none

/-- A node is listed under the labels of all its records. -/
theorem mem_byLabel_ofCollections {id : NodeId} {label : Label} :
    id ∈ idsUnder (ofCollections nodes relationships).byLabel label
      ↔ ∃ node ∈ nodes.records, node.id = id ∧ node.hasLabel label = true := by
  rw [(restoresAll_ofCollections nodes relationships).byLabel, mem_byLabel_foldl_restoreNode]
  exact or_iff_left (fun h => nomatch h)

/-- A relationship is listed at the starts of all its records. -/
theorem mem_byStart_ofCollections {id : RelationshipId} {key : NodeId} :
    id ∈ idsUnder (ofCollections nodes relationships).byStart key
      ↔ ∃ r ∈ restorable nodes.records relationships.records, r.id = id ∧ r.start = key := by
  rw [(restoresAll_ofCollections nodes relationships).byStart,
    (relationships_foldl_restoreNode nodes.records empty).2.1]
  exact or_iff_left (fun h => nomatch h)

/-- A relationship is listed at the ends of all its records. -/
theorem mem_byEnd_ofCollections {id : RelationshipId} {key : NodeId} :
    id ∈ idsUnder (ofCollections nodes relationships).byEnd key
      ↔ ∃ r ∈ restorable nodes.records relationships.records, r.id = id ∧ r.end = key := by
  rw [(restoresAll_ofCollections nodes relationships).byEnd,
    (relationships_foldl_restoreNode nodes.records empty).2.2]
  exact or_iff_left (fun h => nomatch h)

end Store

end PropertyGraph
