/-
  PropertyGraph.Proofs.Files.Repeats
  ──────────────────────────────────
  **WHAT REPEATED IDS DO TO THE INDICES.**

  Where a file repeats an id, the last record stands in the store, but the
  indices keep the entries of all records.  So the look-ups of a loaded store
  are those of a scan if and only if the records of each id agree about what
  is indexed, the labels of nodes and the ends of relationships
  (`exact_iff_of_load`).

  Then deleting a node takes just the relationships that touch it, and a
  search follows relationships from their starts to their ends.
-/
import PropertyGraph.Proofs.Files.Latest
import PropertyGraph.Proofs.Files.Loaded
import PropertyGraph.Proofs.Search.Within

namespace PropertyGraph

/-! ## §1. Look-ups and scans. -/

namespace Store

/-- Every look-up through an index is a scan that keeps what is asked for. -/
structure LooksUpExactly (store : Store) : Prop where
  leaving : ∀ id, store.leaving id = store.allRelationships.filter (fun r => r.startsFrom id)
  entering : ∀ id, store.entering id = store.allRelationships.filter (fun r => r.endsAt id)
  labelled : ∀ label, store.labelled label
    = store.allNodes.filter (fun node => node.hasLabel label)

theorem Coherent.looksUpExactly {store : Store} (h : Coherent store) : store.LooksUpExactly :=
  ⟨h.leaving_eq, h.entering_eq, h.labelled_eq⟩

end Store

/-! ## §2. Records that agree. -/

/-- A record of a node has no labels that the last one of its id lacks, and the
restored records of a relationship join the same nodes. -/
structure RecordsAgree (nodes : List Node) (relationships : List Relationship) : Prop where
  labels : ∀ node ∈ nodes, ∀ last ∈ latest Node.id nodes node.id,
    ∀ label ∈ node.labels.toList, last.hasLabel label = true
  ends : ∀ r ∈ restorable nodes relationships,
    ∀ last ∈ latest Relationship.id (restorable nodes relationships) r.id,
    last.start = r.start ∧ last.end = r.end

instance (nodes : List Node) (relationships : List Relationship) :
    Decidable (RecordsAgree nodes relationships) :=
  decidable_of_iff
    ((∀ node ∈ nodes, ∀ last ∈ latest Node.id nodes node.id,
        ∀ label ∈ node.labels.toList, last.hasLabel label = true)
      ∧ ∀ r ∈ restorable nodes relationships,
        ∀ last ∈ latest Relationship.id (restorable nodes relationships) r.id,
        last.start = r.start ∧ last.end = r.end)
    ⟨fun h => ⟨h.1, h.2⟩, fun h => ⟨h.labels, h.ends⟩⟩

namespace Store

variable {nodes : Collection Node} {relationships : Collection Relationship}

theorem coherent_ofCollections (h : RecordsAgree nodes.records relationships.records) :
    Coherent (ofCollections nodes relationships) where
  toIntegral := integral_ofCollections nodes relationships
  of_byStart {id key} hid := by
    obtain ⟨r, hr, rfl, rfl⟩ := (mem_byStart_ofCollections nodes relationships).1 hid
    obtain ⟨last, hlast⟩ : ∃ last, latest Relationship.id _ r.id = some last := exists_latest hr
    exact ⟨last, (relationship?_ofCollections nodes relationships r.id).trans hlast,
      (h.ends r hr last hlast).1⟩
  of_byEnd {id key} hid := by
    obtain ⟨r, hr, rfl, rfl⟩ := (mem_byEnd_ofCollections nodes relationships).1 hid
    obtain ⟨last, hlast⟩ : ∃ last, latest Relationship.id _ r.id = some last := exists_latest hr
    exact ⟨last, (relationship?_ofCollections nodes relationships r.id).trans hlast,
      (h.ends r hr last hlast).2⟩
  of_byLabel {id label} hid := by
    obtain ⟨node, hnode, rfl, hlabel⟩ := (mem_byLabel_ofCollections nodes relationships).1 hid
    obtain ⟨last, hlast⟩ : ∃ last, latest Node.id _ node.id = some last := exists_latest hnode
    exact ⟨last, (node?_ofCollections nodes relationships node.id).trans hlast,
      h.labels node hnode last hlast label (Node.hasLabel_eq_true_iff.1 hlabel)⟩

/-- Where look-ups are exact, an id is listed only where its last record is. -/
theorem recordsAgree_of_looksUpExactly
    (h : (ofCollections nodes relationships).LooksUpExactly) :
    RecordsAgree nodes.records relationships.records where
  labels node hnode last hlast label hlabel := by
    have hfound : last ∈ (ofCollections nodes relationships).labelled label := by
      refine List.mem_filterMap.2 ⟨node.id, ?_, ?_⟩
      · exact (mem_byLabel_ofCollections nodes relationships).2
          ⟨node, hnode, rfl, Node.hasLabel_eq_true_iff.2 hlabel⟩
      · exact (node?_ofCollections nodes relationships node.id).trans hlast
    rw [h.labelled] at hfound
    exact (List.mem_filter.1 hfound).2
  ends r hr last hlast := by
    have hrelationship : (ofCollections nodes relationships).relationship? r.id = some last :=
      (relationship?_ofCollections nodes relationships r.id).trans hlast
    have hleaving : last ∈ (ofCollections nodes relationships).leaving r.start :=
      List.mem_filterMap.2 ⟨r.id,
        (mem_byStart_ofCollections nodes relationships).2 ⟨r, hr, rfl, rfl⟩, hrelationship⟩
    have hentering : last ∈ (ofCollections nodes relationships).entering r.end :=
      List.mem_filterMap.2 ⟨r.id,
        (mem_byEnd_ofCollections nodes relationships).2 ⟨r, hr, rfl, rfl⟩, hrelationship⟩
    rw [h.leaving] at hleaving
    rw [h.entering] at hentering
    exact ⟨beq_iff_eq.1 (List.mem_filter.1 hleaving).2,
      beq_iff_eq.1 (List.mem_filter.1 hentering).2⟩

/-! ## §3. Deletions and searches. -/

/-- Deleting a node leaves every relationship that does not touch it. -/
def DeletesExactly (store : Store) : Prop :=
  ∀ gone id r, store.relationship? id = some r → r.touches gone = false →
    (store.deleteNode gone).2.relationship? id = some r

/-- Every solution of a search stands for an assignment in which relationships
join the nodes before and after them. -/
def SearchesExactly (store : Store) : Prop :=
  ∀ condition chains, ∀ solution ∈ Search.pattern store condition chains,
    ∃ assignment, Search.Admissible store condition chains assignment
      ∧ Search.bindingsOf chains assignment = solution

theorem Coherent.deletesExactly {store : Store} (h : Coherent store) : store.DeletesExactly := by
  intro gone id r hr htouches
  cases hgone : store.node? gone with
  | none =>
    rw [deleteNode_of_node?_none hgone]
    exact hr
  | some node =>
    unfold Store.relationship?
    rw [h.relationships_deleteNode hgone, SortedMap.find?_filterValues]
    unfold Store.relationship? at hr
    rw [hr, Option.filter_some, htouches]
    rfl

theorem Coherent.searchesExactly {store : Store} (h : Coherent store) : store.SearchesExactly :=
  fun _ _ _ hsolution => (Search.mem_pattern_iff h).1 hsolution

end Store

/-- **What is loaded is exact if and only if the records agree.**  Of the
records that the two files hold, those of one node agree about its labels, and
those of one relationship about its ends: just then each look-up is a scan, and
deletions and searches take no relationship for another. -/
theorem exact_iff_of_load {storage : Storage} {disk : Disk} {name : String} {store : Store}
    (h : storage.load disk name = .ok store) :
    ∃ nodes relationships,
      storage.readCollection Node.ofRecord? disk (storage.nodesFile name) = .ok nodes
      ∧ storage.readCollection Relationship.ofRecord? disk (storage.relationshipsFile name)
        = .ok relationships
      ∧ (store.LooksUpExactly ∧ store.DeletesExactly ∧ store.SearchesExactly
        ↔ RecordsAgree nodes.records relationships.records) := by
  obtain ⟨-, nodes, relationships, hnodes, hrelationships, rfl⟩ := Storage.load_eq_ok_iff.1 h
  refine ⟨nodes, relationships, hnodes, hrelationships, ?_⟩
  constructor
  · exact fun h => Store.recordsAgree_of_looksUpExactly h.1
  · intro hagree
    have hcoherent := Store.coherent_ofCollections hagree
    exact ⟨hcoherent.looksUpExactly, hcoherent.deletesExactly, hcoherent.searchesExactly⟩

/-! ## §4. Two files. -/

/-- A storage in the directory `data`. -/
def dataStorage : Storage := ⟨["data"], "data", .compact⟩

/-- A disk with two data files. -/
def filesDisk (nodes relationships : Json) : Disk :=
  (Storage.dataDisk
    |>.put (dataStorage.nodesFile "default") (.file (.text (nodes.text .compact))))
    |>.put (dataStorage.relationshipsFile "default") (.file (.text (relationships.text .compact)))

section

variable {nodes relationships : Json} {nodeRecords : List Node}
  {relationshipRecords : List Relationship}

/-- Both files are read as their records. -/
theorem readCollection_filesDisk
    (hnodes : nodes.Legible ∧ nodes.depth ≤ nestingLimit
      ∧ Collection.ofJson Node.ofRecord? nodes = .ok ⟨nodeRecords, none⟩)
    (hrelationships : relationships.Legible ∧ relationships.depth ≤ nestingLimit
      ∧ Collection.ofJson Relationship.ofRecord? relationships = .ok ⟨relationshipRecords, none⟩) :
    dataStorage.readCollection Node.ofRecord? (filesDisk nodes relationships)
        (dataStorage.nodesFile "default") = .ok ⟨nodeRecords, none⟩
      ∧ dataStorage.readCollection Relationship.ofRecord? (filesDisk nodes relationships)
        (dataStorage.relationshipsFile "default") = .ok ⟨relationshipRecords, none⟩ := by
  constructor
  · exact Storage.readCollection_eq (by decide +kernel) rfl hnodes.1 hnodes.2.1 hnodes.2.2
  · exact Storage.readCollection_eq (by decide +kernel) rfl hrelationships.1 hrelationships.2.1
      hrelationships.2.2

theorem load_filesDisk
    (h : dataStorage.readCollection Node.ofRecord? (filesDisk nodes relationships)
        (dataStorage.nodesFile "default") = .ok ⟨nodeRecords, none⟩
      ∧ dataStorage.readCollection Relationship.ofRecord? (filesDisk nodes relationships)
        (dataStorage.relationshipsFile "default") = .ok ⟨relationshipRecords, none⟩) :
    dataStorage.load (filesDisk nodes relationships) "default"
      = .ok (Store.ofCollections ⟨nodeRecords, none⟩ ⟨relationshipRecords, none⟩) :=
  Storage.load_eq_ok_iff.2 ⟨by decide, _, _, h.1, h.2, rfl⟩

end

/-- The record of a node. -/
def nodeRecord (id : Nat) (labels : List Label) : Json :=
  .object [("id", .int id), ("labels", .array (labels.map .str))]

/-- The record of a relationship. -/
def relationshipRecord (id : Nat) (type : RelationshipType) (start end_ : Nat) : Json :=
  .object [("id", .int id), ("type", .str type), ("start", .int start), ("end", .int end_)]

theorem legible_nodeRecord {id : Nat} (h : id < UInt64.size) (labels : List Label) :
    (nodeRecord id labels).Legible :=
  ⟨fitsInt_natCast h, legibleItems_map_str labels, trivial⟩

theorem legible_relationshipRecord {id start end_ : Nat}
    (h : id < UInt64.size ∧ start < UInt64.size ∧ end_ < UInt64.size) (type : RelationshipType) :
    (relationshipRecord id type start end_).Legible :=
  ⟨fitsInt_natCast h.1, trivial, fitsInt_natCast h.2.1, fitsInt_natCast h.2.2, trivial⟩

/-- Node 1 gains a label. -/
def relabelled : Json := .array [nodeRecord 2 [], nodeRecord 1 ["A"], nodeRecord 1 ["A", "B"]]

/-- Relationship 1 changes its type, and relationship 9 starts nowhere. -/
def retyped : Json :=
  .array [relationshipRecord 1 "S" 1 2, relationshipRecord 1 "R" 1 2, relationshipRecord 9 "R" 5 2]

/-- The records agree, and the store is exact. -/
theorem exact_iff_of_load_retyped :
    ∃ store, dataStorage.load (filesDisk relabelled retyped) "default" = .ok store
      ∧ store.LooksUpExactly ∧ store.DeletesExactly ∧ store.SearchesExactly := by
  have hnodes : relabelled.Legible := ⟨legible_nodeRecord (by decide) _,
    legible_nodeRecord (by decide) _, legible_nodeRecord (by decide) _, trivial⟩
  have hrelationships : retyped.Legible := ⟨legible_relationshipRecord (by decide) _,
    legible_relationshipRecord (by decide) _, legible_relationshipRecord (by decide) _, trivial⟩
  have hread := readCollection_filesDisk ⟨hnodes, by decide, rfl⟩ ⟨hrelationships, by decide, rfl⟩
  have hload := load_filesDisk hread
  obtain ⟨nodes, relationships, hfirst, hsecond, hexact⟩ := exact_iff_of_load hload
  obtain rfl := Except.ok.inj (hread.1.symm.trans hfirst)
  obtain rfl := Except.ok.inj (hread.2.symm.trans hsecond)
  refine ⟨_, hload, hexact.2 ?_⟩
  decide +kernel

/-- Three nodes. -/
def threeNodes : Json := .array [nodeRecord 1 [], nodeRecord 2 [], nodeRecord 3 []]

/-- Relationship 1 moves its start from node 1 to node 3. -/
def moved : Json := .array [relationshipRecord 1 "R" 1 2, relationshipRecord 1 "R" 3 2]

/-- A relationship that has moved is found at its old start, goes with it, and is
followed from there by a search. -/
theorem load_moved :
    ∃ store, dataStorage.load (filesDisk threeNodes moved) "default" = .ok store
      ∧ (store.leaving 1).map (fun r => (r.id, r.start)) = [(1, 3)]
      ∧ store.allRelationships.filter (fun r => r.startsFrom 1) = []
      ∧ (store.relationship? 1).map (fun r => r.touches 1) = some false
      ∧ (store.deleteNode 1).2.hasRelationship 1 = false
      ∧ (Search.pattern store none
          [[.node ⟨some "a", none, ∅⟩, .relationship ⟨some "r", none, ∅⟩,
            .node ⟨none, none, ∅⟩]]).map
            (fun solution => ((solution.find? "a").map Entity.identity,
              (solution.find? "r").map Entity.identity))
        = [(some (.node 1), some (.relationship 1)), (some (.node 3), some (.relationship 1))] := by
  have hnodes : threeNodes.Legible := ⟨legible_nodeRecord (by decide) _,
    legible_nodeRecord (by decide) _, legible_nodeRecord (by decide) _, trivial⟩
  have hrelationships : moved.Legible := ⟨legible_relationshipRecord (by decide) _,
    legible_relationshipRecord (by decide) _, trivial⟩
  have hread := readCollection_filesDisk ⟨hnodes, by decide, rfl⟩ ⟨hrelationships, by decide, rfl⟩
  refine ⟨_, load_filesDisk hread, ?_⟩
  decide +kernel

end PropertyGraph
