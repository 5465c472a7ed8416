/-
  PropertyGraph.Proofs.Files.Interrupted
  ──────────────────────────────────────
  **A SAVE THAT STOPS BETWEEN ITS TWO FILES.**

  The nodes file is in place before the relationships file is begun.  A save
  that goes no further leaves the nodes of the new store beside the
  relationships of the one saved before, and that is the only way in which a
  failing save can leave the two files different from before
  (`interrupted_of_save_error`).

  What is loaded from there is a graph of its own: all of the new nodes, and
  the old relationships between them (`load_interrupted`).  No relationship
  has been caught by a node that came later under the id of its old end,
  because there is no such node: ids are not handed out twice.
-/
import PropertyGraph.Proofs.Files.Preserved
import PropertyGraph.Proofs.Store.Integrity
import PropertyGraph.Proofs.Store.Lifetime

namespace PropertyGraph

open Disk

namespace Store

variable {store nodes relationships : Store}

/-! ## §1. The store of a mixed pair of files. -/

/-- All nodes of the one store, and the relationships of the other that have
both ends among them. -/
structure Mixes (mixed relationships nodes : Store) : Prop where
  coherent : mixed.Coherent
  looksLike_plain : mixed.LooksLike mixed.plain
  node? : ∀ id, mixed.node? id = nodes.node? id
  allNodes : mixed.allNodes = nodes.allNodes
  allRelationships : mixed.allRelationships
    = relationships.allRelationships.filter
        (fun r => nodes.hasNode r.start && nodes.hasNode r.end)
  nextNodeId : mixed.nextNodeId = nodes.nextNodeId
  nextRelationshipId : mixed.nextRelationshipId = relationships.nextRelationshipId

theorem mixes_besides (hr : Integral relationships) (hn : Integral nodes)
    (hrp : relationships.Preserved) (hnp : nodes.Preserved) :
    (relationships.besides nodes).Mixes relationships nodes := by
  obtain ⟨hcoherent, hnodes, hrelationships, hnextNode, hnextRelationship⟩ :=
    besides_eq hr hn hrp.idsFit hnp.idsFit
  rw [hnp.nodes_eq] at hnodes
  rw [hrp.filterValues_eq] at hrelationships
  refine
    { coherent := hcoherent
      looksLike_plain := hcoherent.looksLike_plain
      node? := fun id => by rw [Store.node?, hnodes]; rfl
      allNodes := by rw [Store.allNodes, hnodes]; rfl
      allRelationships := ?_
      nextNodeId := hnextNode
      nextRelationshipId := hnextRelationship }
  rw [Store.allRelationships, hrelationships, SortedMap.values_filterValues]
  rfl

end Store

namespace Storage

variable {storage : Storage} {disk torn : Disk} {name : String} {store : Store}

/-! ## §2. Between the two files. -/

/-- The nodes file of the store has been replaced, and of the relationships
file at most the temporary file has been touched. -/
def Interrupted (storage : Storage) (disk torn : Disk) (name : String) (store : Store) : Prop :=
  ∃ between, storage.writeFile disk (storage.nodesFile name)
        (store.nodesEnvelope.text storage.layout) = (between, true)
    ∧ ∀ path, path ≠ storage.directory ++ [name ++ "_rels.json" ++ ".tmp"] →
        torn.entry? path = between.entry? path

/-- **A save that fails leaves the two files as they were, or has been
interrupted between them.** -/
theorem interrupted_of_save_error {error : StorageError}
    (h : storage.save disk name store = (torn, .error error)) :
    (∀ path, path ≠ storage.directory ++ [name ++ "_nodes.json" ++ ".tmp"] →
        torn.entry? path = disk.entry? path)
      ∨ Interrupted storage disk torn name store := by
  unfold save at h
  split at h
  next =>
    obtain ⟨rfl, -⟩ := Prod.mk.inj h
    exact .inl (fun _ _ => rfl)
  next =>
    split at h
    next failed hnodes =>
      obtain ⟨rfl, -⟩ := Prod.mk.inj h
      exact .inl (fun path hne => entry?_of_writeFile_eq_false hnodes hne)
    next between hnodes =>
      split at h
      next failed hrels =>
        obtain ⟨rfl, -⟩ := Prod.mk.inj h
        exact .inr ⟨between, hnodes, fun path hne => entry?_of_writeFile_eq_false hrels hne⟩
      next => cases h

/-- The two files after an interrupted save. -/
theorem Interrupted.entry?_files (h : Interrupted storage disk torn name store) :
    storage.reaches (storage.nodesFile name) = true
      ∧ torn.entry? (storage.nodesFile name)
          = some (.file (.text (store.nodesEnvelope.text storage.layout)))
      ∧ torn.entry? (storage.relationshipsFile name)
          = disk.entry? (storage.relationshipsFile name) := by
  obtain ⟨between, hwrite, hagree⟩ := h
  obtain ⟨hreaches, -, rfl⟩ := writeFile_eq_true_iff.1 hwrite
  obtain ⟨h₁, h₂, h₃, -⟩ := nodes_ne_rels name
  unfold nodesFile relationshipsFile
  refine ⟨reaches_of_temporary hreaches, ?_, ?_⟩
  · rw [hagree _ (file_ne_file _ h₂), entry?_replaced, if_pos rfl]
  · rw [hagree _ (file_ne_file _ (append_tmp_ne _).symm), entry?_replaced,
      if_neg (file_ne_file _ h₁.symm), if_neg (file_ne_file _ h₃.symm)]

/-! ## §3. Loading from there. -/

/-- **An interrupted save leaves a graph that loads, with no captured ends.**
A store has been saved completely, operations that restore nothing have
followed, and saving the result has stopped between the two files.  Then all
of the new nodes are loaded, with the old relationships between them and with
look-ups that are scans.  The ends of such a relationship are nodes that were
there at every moment in between, so they were not made in between; and no id
of an old relationship, dropped or not, is handed out again while the ids of
64 bits last. -/
theorem load_interrupted {old : Store} {operations : List StoreOperation} {after : Disk}
    (hold : old.Reachable)
    (hoperations : ∀ operation ∈ operations, operation.isRestoring = false)
    (hfits : old.FitsRun operations)
    (holdPreserved : old.Preserved) (hnewPreserved : (old.run operations).2.Preserved)
    (hsave : storage.save disk name old = (after, .ok ()))
    (htorn : Interrupted storage after torn name (old.run operations).2) :
    ∃ loaded, storage.load torn name = .ok loaded
      ∧ loaded.Mixes old (old.run operations).2
      ∧ (∀ r ∈ loaded.allRelationships, ∀ id, id = r.start ∨ id = r.end →
          (∀ before rest, operations = before ++ rest → old.SameNode (old.run before).2 id)
            ∧ old.SameNode loaded id ∧ .madeNode id ∉ (old.run operations).1)
      ∧ ∀ r ∈ old.allRelationships, ∀ further, loaded.FitsRun further →
          .madeRelationship (.ok r.id) ∉ (loaded.run further).1 := by
  have hbounded : old.Bounded := hold.coherent.bounded holdPreserved.idsFit
  have hintegral : old.Integral := hbounded.toIntegral
  have hnew : (old.run operations).2.Integral := hintegral.run operations
  obtain ⟨hcan, rfl⟩ := save_eq_ok_iff.1 hsave
  obtain ⟨hreaches, hnodesFile, hrelsFile⟩ := htorn.entry?_files
  have hload : storage.load torn name = .ok (old.besides (old.run operations).2) :=
    load_of_files hcan.isName hreaches (reaches_of_temporary hcan.reachesRels) hnodesFile
      (hrelsFile.trans (entry?_rels_saved storage disk name old).1) hintegral
      hnewPreserved.toReadable holdPreserved.toReadable
  have hmixes := Store.mixes_besides hintegral hnew holdPreserved hnewPreserved
  refine ⟨_, hload, hmixes, ?_, ?_⟩
  · intro r hr id hid
    rw [hmixes.allRelationships, List.mem_filter, Bool.and_eq_true] at hr
    obtain ⟨hr, hstart, hend⟩ := hr
    obtain ⟨hstartLt, hendLt⟩ := hbounded.ends_lt (hintegral.mem_allRelationships_iff.1 hr)
    -- the end is a node of the old store, and one of the new store
    obtain ⟨hlt, hthere⟩ :
        id < old.nextNodeId ∧ (old.run operations).2.hasNode id = true := by
      rcases hid with rfl | rfl
      · exact ⟨hstartLt, hstart⟩
      · exact ⟨hendLt, hend⟩
    obtain ⟨node, hnode⟩ := Store.hasNode_eq_true_iff.1 hthere
    have hsame := Store.sameNode_run hoperations hfits hlt hnode
    refine ⟨hsame, ?_, fun hmade => ?_⟩
    · obtain ⟨first, last, hfirst, hlast, hlabels⟩ := hsame operations [] (List.append_nil _).symm
      exact ⟨first, last, hfirst, (hmixes.node? id).trans hlast, hlabels⟩
    · exact Nat.not_le_of_lt hlt ((Store.le_of_made_run hfits).1 id hmade)
  · intro r hr further hfurther hmade
    have hlt : r.id < old.nextRelationshipId := holdPreserved.idsFit.relationship_lt r hr
    have hle := (Store.le_of_made_run hfurther).2 r.id hmade
    rw [hmixes.nextRelationshipId] at hle
    exact Nat.not_le_of_lt hlt hle

/-- Properties that come back as they are. -/
def plainProperties : PropertyMap :=
  .ofList [("height", .float (.finite half)), ("name", .str "Zoë"), ("nothing", .null)]

/-- Three nodes in a row. -/
def rowRun : List StoreOperation :=
  [.createNode ["A"] plainProperties, .createNode [] ∅, .createNode ["B"] ∅,
    .createRelationship "R" 1 2 plainProperties, .createRelationship "R" 2 3 ∅]

/-- The last node goes, another one comes, and the first two change. -/
def changeRun : List StoreOperation :=
  [.deleteNode 3, .createNode ["B"] ∅, .createRelationship "R" 2 4 ∅,
    .setProperties 1 ∅, .setProperties 2 plainProperties]

theorem comesBack_plainProperties : plainProperties.ComesBack where
  floats := by
    have hhalf : Json.ReadsBack half := by decide +kernel
    exact ⟨hhalf, trivial, trivial, trivial⟩
  savedForm_eq := rfl
  depth_le := by decide +kernel

theorem holds_rowRun : (Store.empty.run rowRun).2.Holds PropertyMap.ComesBack := by
  have hempty := PropertyMap.comesBack_empty
  have hplain := comesBack_plainProperties
  refine Store.holds_run Store.holds_empty ?_
  simp only [rowRun, List.forall_mem_cons]
  exact ⟨hplain, hempty, hempty, hplain, hempty, fun _ hmem => absurd hmem List.not_mem_nil⟩

theorem holds_changeRun :
    ((Store.empty.run rowRun).2.run changeRun).2.Holds PropertyMap.ComesBack := by
  have hempty := PropertyMap.comesBack_empty
  refine Store.holds_run holds_rowRun ?_
  simp only [changeRun, List.forall_mem_cons]
  exact ⟨trivial, hempty, hempty, hempty, comesBack_plainProperties,
    fun _ hmem => absurd hmem List.not_mem_nil⟩

theorem load_interrupted_rowRun :
    (Store.empty.run rowRun).2.Reachable
      ∧ (∀ operation ∈ changeRun, operation.isRestoring = false)
      ∧ (Store.empty.run rowRun).2.FitsRun changeRun
      ∧ (Store.empty.run rowRun).2.Preserved
      ∧ ((Store.empty.run rowRun).2.run changeRun).2.Preserved
      ∧ ∃ after torn loaded, save ⟨["data"], "data", .compact⟩ dataDisk "graph"
            (Store.empty.run rowRun).2 = (after, .ok ())
          ∧ Interrupted ⟨["data"], "data", .compact⟩ after torn "graph"
              ((Store.empty.run rowRun).2.run changeRun).2
          ∧ load ⟨["data"], "data", .compact⟩ torn "graph" = .ok loaded
          ∧ loaded.allNodes.map (·.id) = [1, 2, 4]
          ∧ loaded.allRelationships.map (·.id) = [1]
          ∧ loaded.nextNodeId = 5 ∧ loaded.nextRelationshipId = 3
          ∧ loaded.FitsRun [.createRelationship "R" 2 4 ∅]
          ∧ .madeRelationship (.ok 2) ∉ (loaded.run [.createRelationship "R" 2 4 ∅]).1 := by
  have hreach : (Store.empty.run rowRun).2.Reachable :=
    ⟨rowRun, by decide +kernel, rfl⟩
  have hfits : (Store.empty.run rowRun).2.FitsRun changeRun := by decide +kernel
  have hordinary : ∀ operation ∈ changeRun, operation.isRestoring = false := by decide
  have hrowPreserved : (Store.empty.run rowRun).2.Preserved :=
    Store.preserved_of_holds (by decide +kernel) holds_rowRun
  have hchangePreserved : ((Store.empty.run rowRun).2.run changeRun).2.Preserved :=
    Store.preserved_of_holds (by decide +kernel) holds_changeRun
  have hsave := save_eq_ok_iff.2 ⟨canSave_dataDisk .compact,
    (rfl : _ = Storage.saved _ dataDisk "graph" (Store.empty.run rowRun).2)⟩
  have hagain := (canSave_dataDisk .compact).saved (Store.empty.run rowRun).2
  have htorn : Interrupted ⟨["data"], "data", .compact⟩
      (Storage.saved ⟨["data"], "data", .compact⟩ dataDisk "graph" (Store.empty.run rowRun).2) _
      "graph" ((Store.empty.run rowRun).2.run changeRun).2 :=
    ⟨_, writeFile_eq_true_iff.2 ⟨hagain.reachesNodes, hagain.nodes, rfl⟩, fun _ _ => rfl⟩
  obtain ⟨loaded, hload, hmixes, -, hids⟩ :=
    load_interrupted hreach hordinary hfits hrowPreserved hchangePreserved hsave htorn
  have hfurther : loaded.FitsRun [.createRelationship "R" 2 4 ∅] := by
    refine ⟨fun _ => ?_, trivial⟩
    rw [hmixes.nextRelationshipId]
    decide +kernel
  refine ⟨hreach, hordinary, hfits, hrowPreserved, hchangePreserved, _, _, loaded, hsave, htorn,
    hload, ?_, ?_, hmixes.nextNodeId, hmixes.nextRelationshipId, hfurther, ?_⟩
  · rw [hmixes.allNodes]
    decide +kernel
  · rw [hmixes.allRelationships]
    decide +kernel
  · exact hids ⟨2, "R", 2, 3, ∅⟩ (List.mem_cons_of_mem _ List.mem_cons_self) _ hfurther

end Storage

end PropertyGraph
