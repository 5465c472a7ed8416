/-
  PropertyGraph.Proofs.Files.SaveLoad
  ───────────────────────────────────
  **SAVING AND THEN LOADING.**

  A successful save leaves two files, neither of which is a temporary file
  of the other.  Loading reads both back to what was written, and rebuilds
  the store from them:

      save_eq_ok_iff  — what a successful save leaves on the disk
      load_save       — the store that is loaded from there

  Assumed are counters that the ids of 64 bits have lasted for, files that are
  not nested deeper than a reader admits, and of the floats in the store that
  the text of each reads back.
-/
import PropertyGraph.Proofs.Files.Rebuild
import PropertyGraph.Proofs.Files.Replace

namespace PropertyGraph

open Disk

/-! ## §1. What is written. -/

namespace Store

/-- All ids and both counters have 64 bits. -/
structure InRange (store : Store) : Prop where
  nextNodeId_lt : store.nextNodeId < UInt64.size
  nextRelationshipId_lt : store.nextRelationshipId < UInt64.size
  node_lt : ∀ node ∈ store.allNodes, node.id < UInt64.size
  relationship_lt : ∀ r ∈ store.allRelationships, r.id < UInt64.size

theorem IdsFit.inRange {store : Store} (h : store.IdsFit) : store.InRange where
  nextNodeId_lt := h.nextNodeId_lt
  nextRelationshipId_lt := h.nextRelationshipId_lt
  node_lt node hnode := Nat.lt_trans (h.node_lt node hnode) h.nextNodeId_lt
  relationship_lt r hr := Nat.lt_trans (h.relationship_lt r hr) h.nextRelationshipId_lt

/-- Neither data file is nested deeper than `limit`. -/
def NestedWithin (limit : Nat) (store : Store) : Prop :=
  store.nodesEnvelope.depth ≤ limit ∧ store.relationshipsEnvelope.depth ≤ limit

/-- Every finite float in a property of the store reads back from its text. -/
def FloatsReadBack (store : Store) : Prop :=
  (∀ node ∈ store.allNodes, node.properties.AllFloats Json.ReadsBack)
    ∧ ∀ r ∈ store.allRelationships, r.properties.AllFloats Json.ReadsBack

/-- Files with the store can be read. -/
structure Readable (store : Store) : Prop where
  idsFit : store.IdsFit
  nestedWithin : store.NestedWithin nestingLimit
  floatsReadBack : store.FloatsReadBack

/-- Files with the store give every value back as it was. -/
structure Preserved (store : Store) : Prop extends Readable store where
  node : ∀ node ∈ store.allNodes, node.savedForm = node
  relationship : ∀ r ∈ store.allRelationships, r.savedForm = r

variable {store : Store}

theorem Integral.ends_fit (h : Integral store) (hids : store.InRange) {r : Relationship}
    (hr : r ∈ store.allRelationships) :
    r.id < UInt64.size ∧ r.start < UInt64.size ∧ r.end < UInt64.size := by
  have hfound := h.mem_allRelationships_iff.1 hr
  -- the ends are ids of nodes
  have hnode : ∀ {id}, (∃ node, store.node? id = some node) → id < UInt64.size := by
    intro id hex
    obtain ⟨node, hnode⟩ := hex
    obtain ⟨hmem, rfl⟩ := h.node?_eq_some_iff.1 hnode
    exact hids.node_lt node hmem
  exact ⟨hids.relationship_lt r hr, hnode (h.start_exists hfound), hnode (h.end_exists hfound)⟩

theorem legible_nodesEnvelope (hids : store.InRange) (hfloats : store.FloatsReadBack) :
    store.nodesEnvelope.Legible := by
  refine Collection.legible_envelope hids.nextNodeId_lt (legibleItems_map (fun node hnode => ?_))
  exact Node.legible_toRecord (hids.node_lt node hnode) (hfloats.1 node hnode)

theorem legible_relationshipsEnvelope (h : Integral store) (hids : store.InRange)
    (hfloats : store.FloatsReadBack) : store.relationshipsEnvelope.Legible := by
  refine Collection.legible_envelope hids.nextRelationshipId_lt
    (legibleItems_map (fun r hr => ?_))
  obtain ⟨hid, hstart, hend⟩ := h.ends_fit hids hr
  exact Relationship.legible_toRecord hid hstart hend (hfloats.2 r hr)

theorem ofJson_nodesEnvelope (hids : store.InRange) :
    Collection.ofJson Node.ofRecord? store.nodesEnvelope
      = .ok ⟨store.allNodes.map Node.savedForm, some store.nextNodeId⟩ := by
  refine Collection.ofJson_envelope hids.nextNodeId_lt (readRecords_map (fun node hnode => ?_))
  exact Node.ofRecord?_toRecord (hids.node_lt node hnode)

theorem ofJson_relationshipsEnvelope (h : Integral store) (hids : store.InRange) :
    Collection.ofJson Relationship.ofRecord? store.relationshipsEnvelope
      = .ok ⟨store.allRelationships.map Relationship.savedForm,
          some store.nextRelationshipId⟩ := by
  refine Collection.ofJson_envelope hids.nextRelationshipId_lt
    (readRecords_map (fun r hr => ?_))
  obtain ⟨hid, hstart, hend⟩ := h.ends_fit hids hr
  exact Relationship.ofRecord?_toRecord hid hstart hend

/-- A store that comes back is written as before. -/
theorem ComesBackAs.envelopes {loaded : Store} (h : store.ComesBackAs loaded) :
    loaded.nodesEnvelope = store.nodesEnvelope
      ∧ loaded.relationshipsEnvelope = store.relationshipsEnvelope := by
  unfold nodesEnvelope relationshipsEnvelope
  rw [h.allNodes, h.allRelationships, h.nextNodeId, h.nextRelationshipId, List.map_map,
    List.map_map]
  have hnodes : Node.toRecord ∘ Node.savedForm = Node.toRecord :=
    funext Node.toRecord_savedForm
  have hrelationships : Relationship.toRecord ∘ Relationship.savedForm = Relationship.toRecord :=
    funext Relationship.toRecord_savedForm
  rw [hnodes, hrelationships]
  exact ⟨rfl, rfl⟩

end Store

/-! ## §2. The two files. -/

theorem append_ne_append (name : String) {left right : String} (h : left ≠ right) :
    name ++ left ≠ name ++ right := by
  intro heq
  apply h
  have hlists := congrArg String.toList heq
  rw [String.toList_append, String.toList_append] at hlists
  exact String.toList_inj.1 (List.append_cancel_left hlists)

theorem file_ne_file (directory : Path) {left right : String} (h : left ≠ right) :
    directory ++ [left] ≠ directory ++ [right] :=
  fun heq => h (List.cons.inj (List.append_cancel_left heq)).1

namespace Storage

variable {storage : Storage} {disk after : Disk} {name : String} {store : Store}

/-- The names of the two files and of their temporary files are four names. -/
theorem nodes_ne_rels (name : String) :
    name ++ "_nodes.json" ≠ name ++ "_rels.json"
      ∧ name ++ "_nodes.json" ≠ name ++ "_rels.json" ++ ".tmp"
      ∧ name ++ "_nodes.json" ++ ".tmp" ≠ name ++ "_rels.json"
      ∧ name ++ "_nodes.json" ++ ".tmp" ≠ name ++ "_rels.json" ++ ".tmp" := by
  rw [String.append_assoc, String.append_assoc]
  exact ⟨append_ne_append name (by decide), append_ne_append name (by decide),
    append_ne_append name (by decide), append_ne_append name (by decide)⟩

/-- A file is reached if its temporary file is, whose name is longer. -/
theorem reaches_of_temporary {base : String}
    (h : storage.reaches (storage.directory ++ [base ++ ".tmp"]) = true) :
    storage.reaches (storage.directory ++ [base]) = true := by
  unfold reaches isShortPath writtenFile at h ⊢
  rw [List.getLast?_concat] at h ⊢
  simp only [Option.getD_some, decide_eq_true_eq, String.utf8ByteSize_append] at h ⊢
  omega

theorem writeFile_eq_true_iff {base text : String} :
    storage.writeFile disk (storage.directory ++ [base]) text = (after, true)
      ↔ storage.reaches (storage.directory ++ [base ++ ".tmp"]) = true
        ∧ CanReplace disk storage.directory base
        ∧ after = disk.replaced (storage.directory ++ [base]) text := by
  unfold writeFile
  rw [temporary_append]
  by_cases h : storage.reaches (storage.directory ++ [base ++ ".tmp"]) = true
  · rw [if_pos h, replaceFile_eq_true_iff]
    exact (and_iff_right h).symm
  · rw [if_neg h]
    constructor
    · intro heq
      cases heq
    · intro hex
      obtain ⟨h', -⟩ := hex
      exact absurd h' h

theorem entry?_of_writeFile_eq_false {base text : String} {path : Path}
    (h : storage.writeFile disk (storage.directory ++ [base]) text = (after, false))
    (hne : path ≠ storage.directory ++ [base ++ ".tmp"]) :
    after.entry? path = disk.entry? path := by
  unfold writeFile at h
  split at h
  next => exact entry?_of_replaceFile_eq_false h hne
  next =>
    obtain ⟨rfl, -⟩ := Prod.mk.inj h
    rfl

/-- The disk with the two files of a store. -/
def saved (storage : Storage) (disk : Disk) (name : String) (store : Store) : Disk :=
  (disk.replaced (storage.nodesFile name) (store.nodesEnvelope.text storage.layout)).replaced
    (storage.relationshipsFile name) (store.relationshipsEnvelope.text storage.layout)

/-- Nothing prevents the database from being saved. -/
structure CanSave (storage : Storage) (disk : Disk) (name : String) : Prop where
  isName : isDatabaseName name = true
  reachesNodes : storage.reaches (storage.directory ++ [name ++ "_nodes.json" ++ ".tmp"]) = true
  reachesRels : storage.reaches (storage.directory ++ [name ++ "_rels.json" ++ ".tmp"]) = true
  nodes : CanReplace disk storage.directory (name ++ "_nodes.json")
  rels : CanReplace disk storage.directory (name ++ "_rels.json")

/-- **What a successful save leaves**, and when it succeeds. -/
theorem save_eq_ok_iff :
    storage.save disk name store = (after, .ok ())
      ↔ CanSave storage disk name ∧ after = storage.saved disk name store := by
  -- the first replacement does not stand in the way of the second
  have hrels : ∀ text, CanReplace (disk.replaced (storage.nodesFile name) text)
      storage.directory (name ++ "_rels.json")
        ↔ CanReplace disk storage.directory (name ++ "_rels.json") := fun _ =>
    canReplace_replaced_iff (nodes_ne_rels name)
  unfold save validateName
  constructor
  · intro h
    by_cases hname : isDatabaseName name = true
    · rw [if_pos hname] at h
      dsimp only at h
      split at h
      next => cases h
      next afterNodes hnodes =>
        obtain ⟨hreachesNodes, hcanNodes, rfl⟩ := writeFile_eq_true_iff.1 hnodes
        split at h
        next => cases h
        next afterRels hrelsFile =>
          obtain ⟨hreachesRels, hcanRels, rfl⟩ := writeFile_eq_true_iff.1 hrelsFile
          obtain ⟨rfl, -⟩ := Prod.mk.inj h
          exact ⟨⟨hname, hreachesNodes, hreachesRels, hcanNodes, (hrels _).1 hcanRels⟩, rfl⟩
    · rw [if_neg hname] at h
      cases h
  · intro hex
    obtain ⟨h, rfl⟩ := hex
    have hnodes : storage.writeFile disk (storage.nodesFile name)
        (store.nodesEnvelope.text storage.layout)
          = (disk.replaced (storage.nodesFile name) (store.nodesEnvelope.text storage.layout),
            true) :=
      writeFile_eq_true_iff.2 ⟨h.reachesNodes, h.nodes, rfl⟩
    have hrelsFile : storage.writeFile
        (disk.replaced (storage.nodesFile name) (store.nodesEnvelope.text storage.layout))
        (storage.relationshipsFile name) (store.relationshipsEnvelope.text storage.layout)
          = (storage.saved disk name store, true) :=
      writeFile_eq_true_iff.2 ⟨h.reachesRels, (hrels _).2 h.rels, rfl⟩
    rw [if_pos h.isName]
    dsimp only
    rw [hnodes]
    dsimp only
    rw [hrelsFile]

/-! ## §3. Reading the files back. -/

theorem entry?_nodes_saved (storage : Storage) (disk : Disk) (name : String) (store : Store) :
    Disk.entry? (storage.saved disk name store) (storage.nodesFile name)
        = some (.file (.text (store.nodesEnvelope.text storage.layout)))
      ∧ Disk.entry? (storage.saved disk name store)
          (storage.directory ++ [name ++ "_nodes.json" ++ ".tmp"]) = none := by
  obtain ⟨h₁, h₂, h₃, h₄⟩ := nodes_ne_rels name
  unfold saved nodesFile relationshipsFile
  constructor
  · rw [entry?_replaced, if_neg (file_ne_file _ h₁), if_neg (file_ne_file _ h₂), entry?_replaced,
      if_pos rfl]
  · rw [entry?_replaced, if_neg (file_ne_file _ h₃), if_neg (file_ne_file _ h₄), entry?_replaced,
      if_neg (file_ne_file _ (append_tmp_ne _)), if_pos rfl]

theorem entry?_rels_saved (storage : Storage) (disk : Disk) (name : String) (store : Store) :
    Disk.entry? (storage.saved disk name store) (storage.relationshipsFile name)
        = some (.file (.text (store.relationshipsEnvelope.text storage.layout)))
      ∧ Disk.entry? (storage.saved disk name store)
          (storage.directory ++ [name ++ "_rels.json" ++ ".tmp"]) = none := by
  unfold saved relationshipsFile
  constructor
  · rw [entry?_replaced, if_pos rfl]
  · rw [entry?_replaced, if_neg (file_ne_file _ (append_tmp_ne _)), if_pos rfl]

/-- A file with the text of a legible envelope is read as that envelope. -/
theorem readCollection_eq {ρ : Type} {ofRecord? : Json → Option ρ} {envelope : Json}
    {collection : Collection ρ} {path : Path} (hreaches : storage.reaches path = true)
    (hentry : disk.entry? path = some (.file (.text (envelope.text storage.layout))))
    (hlegible : envelope.Legible) (hdepth : envelope.depth ≤ nestingLimit)
    (hcollection : Collection.ofJson ofRecord? envelope = .ok collection) :
    storage.readCollection ofRecord? disk path = .ok collection := by
  unfold readCollection
  rw [if_neg (fun hnot => hnot hreaches), hentry]
  dsimp only
  rw [Json.parse_text storage.layout hlegible hdepth]
  exact hcollection

/-- **The nodes file of one store beside the relationships file of another**
is loaded as the store of their records. -/
theorem load_of_files {nodes relationships : Store} (hname : isDatabaseName name = true)
    (hreachesNodes : storage.reaches (storage.nodesFile name) = true)
    (hreachesRels : storage.reaches (storage.relationshipsFile name) = true)
    (hnodesFile : disk.entry? (storage.nodesFile name)
      = some (.file (.text (nodes.nodesEnvelope.text storage.layout))))
    (hrelsFile : disk.entry? (storage.relationshipsFile name)
      = some (.file (.text (relationships.relationshipsEnvelope.text storage.layout))))
    (hrelationships : relationships.Integral)
    (hnodesRead : nodes.Readable) (hrelationshipsRead : relationships.Readable) :
    storage.load disk name = .ok (relationships.besides nodes) := by
  have hfirst : storage.readCollection Node.ofRecord? disk (storage.nodesFile name)
      = .ok ⟨nodes.allNodes.map Node.savedForm, some nodes.nextNodeId⟩ :=
    readCollection_eq hreachesNodes hnodesFile
      (Store.legible_nodesEnvelope hnodesRead.idsFit.inRange hnodesRead.floatsReadBack)
      hnodesRead.nestedWithin.1 (Store.ofJson_nodesEnvelope hnodesRead.idsFit.inRange)
  have hsecond : storage.readCollection Relationship.ofRecord? disk
      (storage.relationshipsFile name)
        = .ok ⟨relationships.allRelationships.map Relationship.savedForm,
            some relationships.nextRelationshipId⟩ :=
    readCollection_eq hreachesRels hrelsFile
      (Store.legible_relationshipsEnvelope hrelationships hrelationshipsRead.idsFit.inRange
        hrelationshipsRead.floatsReadBack)
      hrelationshipsRead.nestedWithin.2
      (Store.ofJson_relationshipsEnvelope hrelationships hrelationshipsRead.idsFit.inRange)
  unfold load validateName
  rw [if_pos hname, hfirst, hsecond]
  rfl

/-- Loading what was saved gives the store of its own records. -/
theorem load_saved (hstore : store.Integral) (hids : store.IdsFit)
    (hdepth : store.NestedWithin nestingLimit) (hfloats : store.FloatsReadBack)
    (hcan : CanSave storage disk name) :
    storage.load (storage.saved disk name store) name = .ok store.reloaded :=
  load_of_files hcan.isName (reaches_of_temporary hcan.reachesNodes)
    (reaches_of_temporary hcan.reachesRels) (entry?_nodes_saved storage disk name store).1
    (entry?_rels_saved storage disk name store).1 hstore ⟨hids, hdepth, hfloats⟩
    ⟨hids, hdepth, hfloats⟩

/-! ## §4. Saving once more. -/

/-- A disk that has been saved to can be saved to again. -/
theorem CanSave.saved (h : CanSave storage disk name) (store : Store) :
    CanSave storage (storage.saved disk name store) name where
  isName := h.isName
  reachesNodes := h.reachesNodes
  reachesRels := h.reachesRels
  nodes := by
    obtain ⟨h₁, h₂, h₃, h₄⟩ := nodes_ne_rels name
    unfold Storage.saved nodesFile relationshipsFile
    rw [canReplace_replaced_iff ⟨h₁.symm, h₃.symm, h₂.symm, h₄.symm⟩]
    exact h.nodes.replaced _
  rels := by
    unfold Storage.saved nodesFile relationshipsFile
    exact CanReplace.replaced ((canReplace_replaced_iff (nodes_ne_rels name)).2 h.rels) _

/-- Saving the same text once more leaves the disk as it is. -/
theorem saved_twice (storage : Storage) (disk : Disk) (name : String) (store : Store) :
    storage.saved (storage.saved disk name store) name store
      = storage.saved disk name store := by
  obtain ⟨hnodes, hnodesTemporary⟩ := entry?_nodes_saved storage disk name store
  obtain ⟨hrels, hrelsTemporary⟩ := entry?_rels_saved storage disk name store
  have hfirst : (storage.saved disk name store).replaced (storage.nodesFile name)
      (store.nodesEnvelope.text storage.layout) = storage.saved disk name store :=
    replaced_of_present hnodesTemporary hnodes
  have hsecond : (storage.saved disk name store).replaced (storage.relationshipsFile name)
      (store.relationshipsEnvelope.text storage.layout) = storage.saved disk name store :=
    replaced_of_present hrelsTemporary hrels
  rw [Storage.saved, hfirst, hsecond]

theorem saved_saved {loaded : Store} (h : store.ComesBackAs loaded) :
    storage.saved (storage.saved disk name store) name loaded
      = storage.saved disk name store := by
  have hsame : storage.saved (storage.saved disk name store) name loaded
      = storage.saved (storage.saved disk name store) name store := by
    unfold Storage.saved
    rw [h.envelopes.1, h.envelopes.2]
  exact hsame.trans (saved_twice storage disk name store)

/-- A save that has succeeded succeeds again, and changes nothing. -/
theorem save_again (h : storage.save disk name store = (after, .ok ())) :
    storage.save after name store = (after, .ok ()) := by
  obtain ⟨hcan, rfl⟩ := save_eq_ok_iff.1 h
  exact save_eq_ok_iff.2 ⟨hcan.saved store, (saved_twice storage disk name store).symm⟩

/-- **Saving and then loading.**  What a store was saved as is loaded again:
the same entities with null for each float that is not finite, the same
counters and the same look-ups.  Saving that writes the same text again. -/
theorem load_save (hstore : store.Reachable) (hids : store.IdsFit)
    (hdepth : store.NestedWithin nestingLimit) (hfloats : store.FloatsReadBack)
    (hsave : storage.save disk name store = (after, .ok ())) :
    ∃ loaded, storage.load after name = .ok loaded ∧ store.ComesBackAs loaded
      ∧ storage.save after name loaded = (after, .ok ())
      ∧ ∀ other, storage.save other name loaded = storage.save other name store := by
  obtain ⟨hcan, rfl⟩ := save_eq_ok_iff.1 hsave
  have hback := hstore.coherent.comesBackAs_reloaded hids
  refine ⟨store.reloaded, load_saved hstore.coherent.toIntegral hids hdepth hfloats hcan, hback,
    ?_, fun other => ?_⟩
  · exact save_eq_ok_iff.2 ⟨hcan.saved store, (saved_saved hback).symm⟩
  · unfold save
    rw [hback.envelopes.1, hback.envelopes.2]

/-- A half, as a float. -/
def half : Finite64 := ⟨false, 1022 * leadingOne, by decide⟩

/-- Properties that come back, and some that come back as null. -/
def mixedProperties : PropertyMap :=
  .ofList [("heights", .list [.float .nan, .int 5, .float (.infinite true), .float (.finite half)]),
    ("name", .str "\"Zoë\"\n"), ("nothing", .null)]

/-- Two nodes with a relationship; a third one is gone. -/
def mixedRun : List StoreOperation :=
  [.createNode ["A", "B"] mixedProperties, .createNode [] ∅, .createNode ["B"] ∅,
    .createRelationship "KNOWS" 1 3 mixedProperties, .createRelationship "KNOWS" 2 2 ∅,
    .deleteNode 2]

/-- A disk with one directory. -/
def dataDisk : Disk := Disk.empty.put ["data"] .directory

/-- There is room for a database in it. -/
theorem canSave_dataDisk (layout : Json.Layout) :
    CanSave ⟨["data"], "data", layout⟩ dataDisk "graph" := by
  cases layout
  all_goals
    refine ⟨by decide, by decide, by decide, ?_, ?_⟩
    · exact ⟨by decide, by decide, by decide, by decide, rfl, by decide, by decide⟩
    · exact ⟨by decide, by decide, by decide, by decide, rfl, by decide, by decide⟩

theorem load_save_mixedRun :
    (Store.empty.run mixedRun).2.Reachable ∧ (Store.empty.run mixedRun).2.IdsFit
      ∧ (Store.empty.run mixedRun).2.NestedWithin nestingLimit
      ∧ (Store.empty.run mixedRun).2.FloatsReadBack
      ∧ ∃ after loaded, save ⟨["data"], "data", .indented⟩ dataDisk "graph"
            (Store.empty.run mixedRun).2 = (after, .ok ())
          ∧ load ⟨["data"], "data", .indented⟩ after "graph" = .ok loaded
          ∧ (Store.empty.run mixedRun).2.ComesBackAs loaded := by
  have hreach : (Store.empty.run mixedRun).2.Reachable :=
    ⟨mixedRun, ⟨rfl, rfl, rfl, fun _ => rfl, fun _ => rfl, trivial, trivial⟩, rfl⟩
  have hids : (Store.empty.run mixedRun).2.IdsFit := by decide +kernel
  have hdepth : (Store.empty.run mixedRun).2.NestedWithin nestingLimit :=
    ⟨by decide +kernel, by decide +kernel⟩
  have hhalf : Json.ReadsBack half := by decide +kernel
  have hmixed : mixedProperties.AllFloats Json.ReadsBack :=
    ⟨⟨trivial, trivial, trivial, hhalf, trivial⟩, trivial, trivial, trivial⟩
  have hfloats : (Store.empty.run mixedRun).2.FloatsReadBack := by
    constructor
    · intro node hnode
      rcases List.mem_cons.1 hnode with rfl | hnode
      · exact hmixed
      · rcases List.mem_cons.1 hnode with rfl | hnode
        · trivial
        · exact absurd hnode List.not_mem_nil
    · intro r hr
      rcases List.mem_cons.1 hr with rfl | hr
      · exact hmixed
      · exact absurd hr List.not_mem_nil
  have hsave : save ⟨["data"], "data", .indented⟩ dataDisk "graph" (Store.empty.run mixedRun).2
      = (saved ⟨["data"], "data", .indented⟩ dataDisk "graph" (Store.empty.run mixedRun).2,
        .ok ()) :=
    save_eq_ok_iff.2 ⟨canSave_dataDisk _, rfl⟩
  obtain ⟨loaded, hload, hback, -, -⟩ := load_save hreach hids hdepth hfloats hsave
  exact ⟨hreach, hids, hdepth, hfloats, _, loaded, hsave, hload, hback⟩

end Storage

end PropertyGraph
