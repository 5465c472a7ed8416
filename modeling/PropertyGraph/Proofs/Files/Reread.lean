/-
  PropertyGraph.Proofs.Files.Reread
  ─────────────────────────────────
  **WHAT WAS WRITTEN IS READ AS RECORDS OF THE SAME IDS.**

  Not every value in a store is read back as it was: a float that is not
  finite is read as null, and another one perhaps as its neighbour.  But
  every value is read as some value, and strings, labels and ids are read as
  they are.  So the files of a save are loaded as records of the same ids
  with the same counters (`Reread`), unless one of them is nested deeper than
  a reader admits:

      exists_readsAs_nodesEnvelope  — what the text of a file is read as
      load_saved_cases              — what becomes of the files of a save
-/
import PropertyGraph.Proofs.Files.Apart
import PropertyGraph.Proofs.Json.Depth
import PropertyGraph.Proofs.Json.FloatText

namespace PropertyGraph

open Disk

/-! ## §1. Written entities are read as entities. -/

namespace Value

mutual

/-- Every value is read as something. -/
theorem exists_readsAs : ∀ value : Value, ∃ read, value.toJson.ReadsAs read
  | .null => ⟨_, rfl⟩
  | .bool _ => ⟨_, rfl⟩
  | .int i => ⟨_, fitsInt_toInt i, rfl⟩
  | .float (.finite x) =>
    let ⟨hread, y, hy⟩ := Json.exists_readNumeral_float x
    ⟨.float y, x.numeral, hread, hy⟩
  | .float .nan => ⟨_, rfl⟩
  | .float (.infinite _) => ⟨_, rfl⟩
  | .str _ => ⟨_, rfl⟩
  | .list items =>
    let ⟨read, hread⟩ := exists_itemsReadAs items
    ⟨.array read, read, hread, rfl⟩
  | .map entries =>
    let ⟨read, hread⟩ := exists_membersReadAs entries
    ⟨.object read, read, hread, rfl⟩

theorem exists_itemsReadAs : ∀ items : List Value,
    ∃ read, Json.ItemsReadAs (itemsToJson items) read
  | [] => ⟨[], trivial⟩
  | item :: items =>
    let ⟨readItem, hitem⟩ := exists_readsAs item
    let ⟨readItems, hitems⟩ := exists_itemsReadAs items
    ⟨readItem :: readItems, hitem, hitems⟩

theorem exists_membersReadAs : ∀ entries : List (String × Value),
    ∃ read, Json.MembersReadAs (entriesToJson entries) read
  | [] => ⟨[], trivial⟩
  | (key, value) :: entries =>
    let ⟨readValue, hvalue⟩ := exists_readsAs value
    let ⟨readEntries, hentries⟩ := exists_membersReadAs entries
    ⟨(key, readValue) :: readEntries, rfl, hvalue, hentries⟩

end

end Value

theorem Node.exists_readsAs {node : Node} (hid : node.id < UInt64.size) :
    ∃ read, node.toRecord.ReadsAs read
      ∧ ∃ other, ofRecord? read = some other ∧ other.id = node.id := by
  obtain ⟨properties, hproperties⟩ := Value.exists_membersReadAs node.properties.entries
  have hlabels := (legibleItems_map_str node.labels.toList).readAs
  refine ⟨.object [("id", .int node.id), ("labels", .array (node.labels.toList.map .str)),
    ("properties", .object properties)], ⟨_, ?_, rfl⟩, _, ofRecord?_fields hid _ properties, rfl⟩
  exact ⟨rfl, ⟨fitsInt_natCast hid, rfl⟩, rfl, ⟨_, hlabels, rfl⟩, rfl, ⟨_, hproperties, rfl⟩,
    trivial⟩

theorem Relationship.exists_readsAs {r : Relationship} (hid : r.id < UInt64.size)
    (hstart : r.start < UInt64.size) (hend : r.end < UInt64.size) :
    ∃ read, r.toRecord.ReadsAs read
      ∧ ∃ other, ofRecord? read = some other ∧ other.id = r.id := by
  obtain ⟨properties, hproperties⟩ := Value.exists_membersReadAs r.properties.entries
  refine ⟨.object [("id", .int r.id), ("type", .str r.type), ("start", .int r.start),
    ("end", .int r.end), ("properties", .object properties)], ⟨_, ?_, rfl⟩, _,
    ofRecord?_fields hid hstart hend r.type properties, rfl⟩
  exact ⟨rfl, ⟨fitsInt_natCast hid, rfl⟩, rfl, rfl, rfl, ⟨fitsInt_natCast hstart, rfl⟩, rfl,
    ⟨fitsInt_natCast hend, rfl⟩, rfl, ⟨_, hproperties, rfl⟩, trivial⟩

/-! ## §2. Written envelopes are read as collections. -/

/-- The collection has a record for each of the items, of the same id, and the
counter. -/
structure Collection.Reread {ρ : Type} (idOf : ρ → Nat) (items : List ρ) (nextId : Nat)
    (collection : Collection ρ) : Prop where
  ids : collection.records.map idOf = items.map idOf
  nextId : collection.nextId = some nextId

section

variable {ρ : Type} {toRecord : ρ → Json} {ofRecord? : Json → Option ρ} {idOf : ρ → Nat}
  {items : List ρ}

theorem exists_recordsReadAs
    (h : ∀ item ∈ items, ∃ read, (toRecord item).ReadsAs read
      ∧ ∃ other, ofRecord? read = some other ∧ idOf other = idOf item) :
    ∃ read, Json.ItemsReadAs (items.map toRecord) read
      ∧ ∃ others, readRecords ofRecord? read = some others
        ∧ others.map idOf = items.map idOf := by
  induction items with
  | nil => exact ⟨[], trivial, [], rfl, rfl⟩
  | cons item rest ih =>
    obtain ⟨read, hread, other, hother, hid⟩ := h item List.mem_cons_self
    obtain ⟨readRest, hrest, others, hothers, hids⟩ :=
      ih (fun item hitem => h item (List.mem_cons_of_mem _ hitem))
    refine ⟨read :: readRest, ⟨hread, hrest⟩, other :: others, ?_, ?_⟩
    · rw [readRecords, hother, hothers]
    · rw [List.map_cons, List.map_cons, hid, hids]

/-- **An envelope is read as a collection** if each of its records is read as a
record. -/
theorem Collection.exists_readsAs_envelope {nextId : Nat} (hnext : nextId < UInt64.size)
    (h : ∀ item ∈ items, ∃ read, (toRecord item).ReadsAs read
      ∧ ∃ other, ofRecord? read = some other ∧ idOf other = idOf item) :
    ∃ read, (envelope nextId (items.map toRecord)).ReadsAs read
      ∧ ∃ collection, ofJson ofRecord? read = .ok collection
        ∧ collection.Reread idOf items nextId := by
  obtain ⟨records, hrecords, others, hothers, hids⟩ := exists_recordsReadAs h
  refine ⟨envelope nextId records, ⟨members nextId records, ?_, rfl⟩, ⟨others, some nextId⟩,
    ofJson_envelope hnext hothers, hids, rfl⟩
  exact ⟨rfl, ⟨⟨by decide, by decide⟩, rfl⟩, rfl, ⟨fitsInt_natCast hnext, rfl⟩, rfl,
    ⟨records, hrecords, rfl⟩, trivial⟩

end

namespace Store

variable {store : Store}

theorem exists_readsAs_nodesEnvelope (hids : store.InRange) :
    ∃ read, store.nodesEnvelope.ReadsAs read
      ∧ ∃ collection, Collection.ofJson Node.ofRecord? read = .ok collection
        ∧ collection.Reread Node.id store.allNodes store.nextNodeId :=
  Collection.exists_readsAs_envelope hids.nextNodeId_lt
    (fun node hnode => Node.exists_readsAs (hids.node_lt node hnode))

theorem exists_readsAs_relationshipsEnvelope (h : Integral store) (hids : store.InRange) :
    ∃ read, store.relationshipsEnvelope.ReadsAs read
      ∧ ∃ collection, Collection.ofJson Relationship.ofRecord? read = .ok collection
        ∧ collection.Reread Relationship.id store.allRelationships store.nextRelationshipId := by
  refine Collection.exists_readsAs_envelope hids.nextRelationshipId_lt (fun r hr => ?_)
  obtain ⟨hid, hstart, hend⟩ := h.ends_fit hids hr
  exact Relationship.exists_readsAs hid hstart hend

end Store

/-! ## §3. Loading what was saved. -/

namespace Storage

variable {storage : Storage} {disk : Disk} {name : String} {store : Store}

/-- A written file is read, or is nested too deeply and taken for malformed. -/
theorem readCollection_of_readsAs {ρ : Type} {ofRecord? : Json → Option ρ}
    {p : Collection ρ → Prop} {envelope : Json} {path : Path}
    (hreaches : storage.reaches path = true)
    (hentry : disk.entry? path = some (.file (.text (envelope.text storage.layout))))
    (h : ∃ read, envelope.ReadsAs read
      ∧ ∃ collection, Collection.ofJson ofRecord? read = .ok collection ∧ p collection) :
    ((∃ collection, storage.readCollection ofRecord? disk path = .ok collection ∧ p collection)
        ∧ envelope.depth ≤ nestingLimit)
      ∨ storage.readCollection ofRecord? disk path = .error .malformedData
        ∧ ¬ envelope.depth ≤ nestingLimit := by
  obtain ⟨read, hread, collection, hcollection, hp⟩ := h
  unfold readCollection
  rw [if_neg (fun hnot => hnot hreaches), hentry]
  dsimp only
  by_cases hdepth : envelope.depth ≤ nestingLimit
  · left
    rw [hread.parse storage.layout hdepth]
    exact ⟨⟨collection, hcollection, hp⟩, hdepth⟩
  · right
    have hnone : Json.parse nestingLimit (envelope.text storage.layout) = none := by
      refine Option.eq_none_iff_forall_ne_some.2 (fun other hother => hdepth ?_)
      exact (hread.parse_iff storage.layout).1 ⟨other, hother⟩
    rw [hnone]
    exact ⟨rfl, hdepth⟩

/-- **What becomes of the files of a save**: they are loaded as records of the
same ids with the same counters, or one is nested too deeply and taken for
malformed. -/
theorem load_saved_cases (hstore : store.Integral) (hids : store.InRange)
    (hcan : CanSave storage disk name) :
    ((∃ nodes relationships, storage.load (storage.saved disk name store) name
            = .ok (.ofCollections nodes relationships)
          ∧ nodes.Reread Node.id store.allNodes store.nextNodeId
          ∧ relationships.Reread Relationship.id store.allRelationships
              store.nextRelationshipId)
        ∧ store.NestedWithin nestingLimit)
      ∨ storage.load (storage.saved disk name store) name = .error .malformedData
        ∧ ¬ store.NestedWithin nestingLimit := by
  have hname : validateName name = .ok () := if_pos hcan.isName
  have hreachesNodes : storage.reaches (storage.nodesFile name) = true :=
    reaches_of_temporary hcan.reachesNodes
  have hreachesRels : storage.reaches (storage.relationshipsFile name) = true :=
    reaches_of_temporary hcan.reachesRels
  have hfirst := readCollection_of_readsAs hreachesNodes
    (entry?_nodes_saved storage disk name store).1 (Store.exists_readsAs_nodesEnvelope hids)
  have hsecond := readCollection_of_readsAs hreachesRels
    (entry?_rels_saved storage disk name store).1
    (Store.exists_readsAs_relationshipsEnvelope hstore hids)
  unfold load
  rw [hname]
  obtain ⟨⟨nodes, hnodes, hnodesRead⟩, hnodesDepth⟩ | ⟨hnodes, hdeep⟩ := hfirst
  · rw [hnodes]
    obtain ⟨⟨relationships, hrelationships, hrelsRead⟩, hdepth⟩ | ⟨hrelationships, hdeep⟩ := hsecond
    · rw [hrelationships]
      exact .inl ⟨⟨nodes, relationships, rfl, hnodesRead, hrelsRead⟩, hnodesDepth, hdepth⟩
    · rw [hrelationships]
      exact .inr ⟨rfl, fun h => hdeep h.2⟩
  · rw [hnodes]
    exact .inr ⟨rfl, fun h => hdeep h.1⟩

end Storage

end PropertyGraph
