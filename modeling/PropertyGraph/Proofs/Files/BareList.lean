/-
  PropertyGraph.Proofs.Files.BareList
  ───────────────────────────────────
  **A BARE LIST LOADS LIKE AN ENVELOPE.**

  The oldest data files hold a list of records and nothing around it.  Such a
  file is worth as much as any envelope of the same records that has no counter
  (`IsUncounted`), whatever else the envelope holds, in which order, and however
  both are spelled: records that cannot be read make either of them malformed.
  An envelope of a newer version (`IsNewer`) is refused as such, whatever its
  records are.

      readCollection_document  — a file that spells a document
      load_put_congr           — what is loaded depends on what a file is read as
      load_bareList            — both layouts, and newer versions

  The limit on nesting is one for the whole file.  An envelope takes its records
  one level deeper, and its other members count as well, though nobody looks at
  them: a list can be read where an envelope of it cannot (`load_deepNote`).
-/
import PropertyGraph.Proofs.Files.Loadable
import PropertyGraph.Proofs.Json.Document

namespace PropertyGraph

/-! ## §1. Envelopes. -/

theorem Json.depth_le_depthMembers {name : String} {value : Json}
    {members : List (String × Json)} (h : (name, value) ∈ members) :
    value.depth ≤ depthMembers members := by
  induction members with
  | nil => exact absurd h List.not_mem_nil
  | cons member rest ih =>
    rw [depthMembers]
    obtain rfl | hrest := List.mem_cons.1 h
    · exact Nat.le_max_left _ _
    · exact Nat.le_trans (ih hrest) (Nat.le_max_right _ _)

namespace Collection

variable {ρ : Type} {ofRecord? : Json → Option ρ} {members : List (String × Json)}

/-- The members of an envelope that says no more than the list of its records:
a version that is supported, no counter, and any others. -/
structure IsUncounted (members : List (String × Json)) (records : List Json) : Prop where
  version_of : ∃ version : Nat, Json.valuesOf "version" members = [.int version]
    ∧ version ≤ formatVersion
  counter_of : SavesCounter (Json.valuesOf "next_id" members) none
  records_of : Json.valuesOf "records" members = [.array records]

/-- The members of an envelope of a newer version, whose records may be
anything. -/
structure IsNewer (members : List (String × Json)) (version : Nat) : Prop where
  version_of : Json.valuesOf "version" members = [.int version]
  newer : formatVersion < version
  fits : version < UInt32.size
  counter_of : ∃ nextId, SavesCounter (Json.valuesOf "next_id" members) nextId
  records_of : ∃ records, Json.valuesOf "records" members = [records]

/-- **An envelope without a counter is read as its records**, also where they
are malformed. -/
theorem ofJson_uncounted {records : List Json} (h : IsUncounted members records) :
    ofJson ofRecord? (.object members) = ofJson ofRecord? (.array records) := by
  obtain ⟨version, hversion, hsupported⟩ := h.version_of
  have hfits : version < UInt32.size := Nat.lt_of_le_of_lt hsupported (by decide)
  have hparts : envelopeParts? members = some (version, none, .array records) :=
    envelopeParts?_eq_some_iff.2 ⟨⟨hversion, hfits⟩, h.counter_of, h.records_of⟩
  simp only [ofJson, hparts, if_neg (Nat.not_lt.2 hsupported)]

/-- **A newer envelope is refused** before its records are looked at. -/
theorem ofJson_newer {version : Nat} (h : IsNewer members version) :
    ofJson ofRecord? (.object members) = .error (.unsupportedVersion version) := by
  obtain ⟨nextId, hcounter⟩ := h.counter_of
  obtain ⟨records, hrecords⟩ := h.records_of
  have hparts : envelopeParts? members = some (version, nextId, records) :=
    envelopeParts?_eq_some_iff.2 ⟨⟨h.version_of, h.fits⟩, hcounter, hrecords⟩
  simp only [ofJson, hparts, if_pos h.newer]

/-- An envelope is nested more deeply than the list of its records. -/
theorem IsUncounted.depth_lt {records : List Json} (h : IsUncounted members records) :
    (Json.array records).depth < (Json.object members).depth := by
  have hmember : ("records", Json.array records) ∈ members := by
    have hvalue : Json.array records ∈ Json.valuesOf "records" members := by
      rw [h.records_of]
      exact List.mem_singleton_self _
    obtain ⟨⟨name, value⟩, hfound, rfl⟩ := List.mem_map.1 hvalue
    obtain ⟨hmem, hname⟩ := List.mem_filter.1 hfound
    rw [← beq_iff_eq.1 hname]
    exact hmem
  exact Nat.lt_succ_of_le (Json.depth_le_depthMembers hmember)

end Collection

/-! ## §2. Files. -/

namespace Storage

variable {storage : Storage} {disk : Disk} {name : String} {file : Path}

theorem file_ne_nil (h : file = storage.nodesFile name ∨ file = storage.relationshipsFile name) :
    file ≠ [] := by
  obtain rfl | rfl := h
  · exact Disk.append_singleton_ne_nil _ _
  · exact Disk.append_singleton_ne_nil _ _

/-- **A file that spells a document** is read as the document, or refused if it
is nested too deeply. -/
theorem readCollection_document {ρ : Type} (ofRecord? : Json → Option ρ) (disk : Disk)
    {json : Json} {text : String} (hspelled : Json.Document json text.toList) (hfile : file ≠ [])
    (hreaches : storage.reaches file = true) :
    storage.readCollection ofRecord? (disk.put file (.file (.text text))) file
      = if json.depth ≤ nestingLimit then Collection.ofJson ofRecord? json
        else .error .malformedData := by
  unfold readCollection
  rw [if_neg (fun hnot => hnot hreaches), Disk.entry?_put _ hfile, if_pos rfl]
  dsimp only
  by_cases hdepth : json.depth ≤ nestingLimit
  · rw [if_pos hdepth, Json.parse_eq_some_iff_document.2 ⟨hspelled, hdepth⟩]
  · rw [if_neg hdepth, hspelled.parse_eq_none (Nat.lt_of_not_le hdepth)]

/-- A file of one of the two kinds is read as it was if the other one is
replaced. -/
theorem readCollection_put_of_ne {ρ : Type} (ofRecord? : Json → Option ρ) {base other : String}
    (hne : base ≠ other) (entry : DiskEntry) :
    storage.readCollection ofRecord? (disk.put (storage.directory ++ [other]) entry)
        (storage.directory ++ [base])
      = storage.readCollection ofRecord? disk (storage.directory ++ [base]) := by
  have hput : ∀ place, place ≠ storage.directory ++ [other] →
      Disk.entry? (disk.put (storage.directory ++ [other]) entry) place = disk.entry? place :=
    fun place hplace => by
      rw [Disk.entry?_put _ (Disk.append_singleton_ne_nil _ _), if_neg hplace]
  exact readCollection_congr (fun place hplace => hput place (file_ne_of_above hplace other))
    (hput _ (file_ne_file _ hne))

/-- **What is loaded depends on what a file is read as**, not on its text. -/
theorem load_put_congr {text other : String}
    (hfile : file = storage.nodesFile name ∨ file = storage.relationshipsFile name)
    (h : ∀ {ρ : Type} (ofRecord? : Json → Option ρ),
      storage.readCollection ofRecord? (disk.put file (.file (.text text))) file
        = storage.readCollection ofRecord? (disk.put file (.file (.text other))) file) :
    storage.load (disk.put file (.file (.text text))) name
      = storage.load (disk.put file (.file (.text other))) name := by
  have hne : name ++ "_nodes.json" ≠ name ++ "_rels.json" := (nodes_ne_rels name).1
  rcases hfile with rfl | rfl
  · have hrels : ∀ text, storage.readCollection Relationship.ofRecord?
        (disk.put (storage.nodesFile name) (.file (.text text))) (storage.relationshipsFile name)
          = storage.readCollection Relationship.ofRecord? disk (storage.relationshipsFile name) :=
      fun text => readCollection_put_of_ne _ hne.symm _
    unfold load
    rw [h Node.ofRecord?, hrels, hrels]
  · have hnodes : ∀ text, storage.readCollection Node.ofRecord?
        (disk.put (storage.relationshipsFile name) (.file (.text text))) (storage.nodesFile name)
          = storage.readCollection Node.ofRecord? disk (storage.nodesFile name) :=
      fun text => readCollection_put_of_ne _ hne _
    unfold load
    rw [h Relationship.ofRecord?, hnodes, hnodes]

/-- With this text in either of its two files a database is not loaded, and the
error says why; the relationships are only looked at once the nodes have been
read. -/
structure Refuses (storage : Storage) (disk : Disk) (name text : String) (error : StorageError) :
    Prop where
  nodes : storage.reaches (storage.nodesFile name) = true →
    storage.load (disk.put (storage.nodesFile name) (.file (.text text))) name = .error error
  relationships : storage.reaches (storage.relationshipsFile name) = true → ∀ nodes,
    storage.readCollection Node.ofRecord? disk (storage.nodesFile name) = .ok nodes →
    storage.load (disk.put (storage.relationshipsFile name) (.file (.text text))) name
      = .error error

/-- A text that is refused as a file of any records is refused as either file. -/
theorem refuses_of_readCollection {text : String} {error : StorageError}
    (hname : isDatabaseName name = true)
    (h : ∀ {ρ : Type} (ofRecord? : Json → Option ρ) {file : Path}, file ≠ [] →
      storage.reaches file = true →
      storage.readCollection ofRecord? (disk.put file (.file (.text text))) file
        = .error error) :
    storage.Refuses disk name text error where
  nodes hreaches := by
    have hvalid : validateName name = .ok () := if_pos hname
    unfold load
    rw [hvalid, h Node.ofRecord? (file_ne_nil (.inl rfl)) hreaches]
    rfl
  relationships hreaches nodes hnodes := by
    have hvalid : validateName name = .ok () := if_pos hname
    have hfile : storage.relationshipsFile name ≠ [] := file_ne_nil (.inr rfl)
    -- the nodes file is another file, so it is read as it was
    have hother : storage.readCollection Node.ofRecord?
        (disk.put (storage.relationshipsFile name) (.file (.text text))) (storage.nodesFile name)
          = storage.readCollection Node.ofRecord? disk (storage.nodesFile name) :=
      readCollection_put_of_ne _ (nodes_ne_rels name).1 _
    unfold load
    rw [hvalid, hother, hnodes, h Relationship.ofRecord? hfile hreaches]
    rfl

section

variable {members : List (String × Json)} {envelope : String}

/-- A bare list and an envelope of it load alike in either file. -/
theorem load_uncounted {records : List Json} {bare : String} (storage : Storage) (disk : Disk)
    (name : String) (huncounted : Collection.IsUncounted members records)
    (hbare : Json.Document (.array records) bare.toList)
    (henvelope : Json.Document (.object members) envelope.toList)
    (hdepth : (Json.object members).depth ≤ nestingLimit)
    (hfile : file = storage.nodesFile name ∨ file = storage.relationshipsFile name) :
    storage.load (disk.put file (.file (.text bare))) name
      = storage.load (disk.put file (.file (.text envelope))) name := by
  refine load_put_congr hfile (fun ofRecord? => ?_)
  by_cases hreaches : storage.reaches file = true
  · have hlist : (Json.array records).depth ≤ nestingLimit :=
      Nat.le_trans (Nat.le_of_lt huncounted.depth_lt) hdepth
    rw [readCollection_document ofRecord? disk hbare (file_ne_nil hfile) hreaches, if_pos hlist,
      readCollection_document ofRecord? disk henvelope (file_ne_nil hfile) hreaches,
      if_pos hdepth]
    exact (Collection.ofJson_uncounted huncounted).symm
  · unfold readCollection
    rw [if_pos hreaches, if_pos hreaches]

/-- A document that is nested too deeply is malformed, whatever it says. -/
theorem refuses_deep {json : Json} {text : String} (storage : Storage) (disk : Disk)
    (hspelled : Json.Document json text.toList) (hdepth : nestingLimit < json.depth)
    (hname : isDatabaseName name = true) : storage.Refuses disk name text .malformedData := by
  refine refuses_of_readCollection hname (fun ofRecord? _ hfile hreaches => ?_)
  rw [readCollection_document ofRecord? disk hspelled hfile hreaches,
    if_neg (Nat.not_le_of_lt hdepth)]

theorem refuses_newer {version : Nat} (storage : Storage) (disk : Disk)
    (hspelled : Json.Document (.object members) envelope.toList)
    (hdepth : (Json.object members).depth ≤ nestingLimit)
    (hnewer : Collection.IsNewer members version) (hname : isDatabaseName name = true) :
    storage.Refuses disk name envelope (.unsupportedVersion version) := by
  refine refuses_of_readCollection hname (fun ofRecord? _ hfile hreaches => ?_)
  rw [readCollection_document ofRecord? disk hspelled hfile hreaches, if_pos hdepth,
    Collection.ofJson_newer hnewer]

/-- **A bare list and its envelopes load alike**: the same store, or the same
error, for every list of records and every spelling of both, whichever of the
two files it is and whatever the other one holds.  **A newer version is
reported** whatever its records are.  What is nested too deeply as a whole is
malformed in place of both. -/
theorem load_bareList (storage : Storage) (disk : Disk) (name : String)
    (hspelled : Json.Document (.object members) envelope.toList) :
    ((Json.object members).depth ≤ nestingLimit →
      (∀ records bare, Collection.IsUncounted members records →
        Json.Document (.array records) bare.toList →
        ∀ file, file = storage.nodesFile name ∨ file = storage.relationshipsFile name →
          storage.load (disk.put file (.file (.text bare))) name
            = storage.load (disk.put file (.file (.text envelope))) name)
      ∧ ∀ version, Collection.IsNewer members version → isDatabaseName name = true →
        storage.Refuses disk name envelope (.unsupportedVersion version))
      ∧ (nestingLimit < (Json.object members).depth → isDatabaseName name = true →
        storage.Refuses disk name envelope .malformedData) := by
  refine ⟨fun hdepth => ⟨?_, ?_⟩, fun hdepth hname => refuses_deep storage disk hspelled hdepth hname⟩
  · intro records bare huncounted hbare file hfile
    exact load_uncounted storage disk name huncounted hbare hspelled hdepth hfile
  · intro version hnewer hname
    exact refuses_newer storage disk hspelled hdepth hnewer hname

end

end Storage

/-! ## §3. Three envelopes. -/

/-- Two nodes, the second of them in the form of an array. -/
def twoRecords : List Json := [nodeRecord 3 ["A"], .array [.int 5, .array [.null]]]

/-- An envelope of the same records, in another order and with a note. -/
def notedMembers : List (String × Json) :=
  [("note", .array [.bool true]), ("records", .array twoRecords), ("next_id", .null),
    ("version", .int 0)]

/-- A later version, whose records are no list. -/
def laterMembers : List (String × Json) := [("records", .str "elsewhere"), ("version", .int 7)]

theorem legible_twoRecords : (Json.array twoRecords).Legible :=
  ⟨legible_nodeRecord (by decide) _,
    ⟨fitsInt_natCast (show 5 < UInt64.size by decide), ⟨trivial, trivial⟩, trivial⟩, trivial⟩

theorem load_bareList_noted :
    Collection.IsUncounted notedMembers twoRecords ∧ Collection.IsNewer laterMembers 7
      ∧ dataStorage.load (Storage.dataDisk.put (dataStorage.nodesFile "default")
            (.file (.text ((Json.array twoRecords).text .indented)))) "default"
          = dataStorage.load (Storage.dataDisk.put (dataStorage.nodesFile "default")
            (.file (.text ((Json.object notedMembers).text .compact)))) "default"
      ∧ dataStorage.load (Storage.dataDisk.put (dataStorage.nodesFile "default")
          (.file (.text ((Json.object laterMembers).text .compact)))) "default"
        = .error (.unsupportedVersion 7)
      ∧ dataStorage.load (Storage.dataDisk.put (dataStorage.relationshipsFile "default")
          (.file (.text ((Json.object laterMembers).text .compact)))) "default"
        = .error (.unsupportedVersion 7) := by
  have hnoted : (Json.object notedMembers).Legible :=
    ⟨⟨trivial, trivial⟩, legible_twoRecords, trivial,
      fitsInt_natCast (show 0 < UInt64.size by decide), trivial⟩
  have hlater : (Json.object laterMembers).Legible :=
    ⟨trivial, fitsInt_natCast (show 7 < UInt64.size by decide), trivial⟩
  have huncounted : Collection.IsUncounted notedMembers twoRecords :=
    ⟨⟨0, rfl, by decide⟩, .null, rfl⟩
  have hnewer : Collection.IsNewer laterMembers 7 :=
    ⟨rfl, by decide, by decide, ⟨none, .absent⟩, ⟨_, rfl⟩⟩
  have halike := ((Storage.load_bareList dataStorage Storage.dataDisk "default"
    (hnoted.document .compact)).1 (by decide +kernel)).1 twoRecords _ huncounted
    (legible_twoRecords.document .indented) (dataStorage.nodesFile "default") (.inl rfl)
  have hrefused := ((Storage.load_bareList dataStorage Storage.dataDisk "default"
    (hlater.document .compact)).1 (by decide)).2 7 hnewer (by decide)
  -- there is no nodes file, which is read as no nodes
  have hnodes : dataStorage.readCollection Node.ofRecord? Storage.dataDisk
      (dataStorage.nodesFile "default") = .ok ⟨[], none⟩ :=
    Storage.readCollection_eq_ok_iff.2 ⟨by decide +kernel, fun _ => by decide +kernel, .missing⟩
  exact ⟨huncounted, hnewer, halike, hrefused.nodes (by decide +kernel),
    hrefused.relationships (by decide +kernel) _ hnodes⟩

/-- An envelope of one node with a note that could stand alone just as deep as a
reader admits. -/
def deepNoteMembers : List (String × Json) :=
  [("version", .int 1), ("records", .array [nodeRecord 1 []]), ("note", nestedList 126)]

/-- The list of the node is loaded and the envelope of the same list is not,
because of a member that means nothing. -/
theorem load_deepNote :
    Collection.IsUncounted deepNoteMembers [nodeRecord 1 []]
      ∧ (Json.array [nodeRecord 1 []]).depth ≤ nestingLimit
      ∧ Json.Document (.array [nodeRecord 1 []])
        ((Json.array [nodeRecord 1 []]).text .compact).toList
      ∧ Json.Document (.object deepNoteMembers)
        ((Json.object deepNoteMembers).text .compact).toList
      ∧ dataStorage.load (Storage.dataDisk.put (dataStorage.nodesFile "default")
          (.file (.text ((Json.array [nodeRecord 1 []]).text .compact)))) "default"
        = .ok (Store.ofCollections ⟨[⟨1, ∅, ∅⟩], none⟩ ⟨[], none⟩)
      ∧ dataStorage.load (Storage.dataDisk.put (dataStorage.nodesFile "default")
          (.file (.text ((Json.object deepNoteMembers).text .compact)))) "default"
        = .error .malformedData := by
  have hlist : (Json.array [nodeRecord 1 []]).Legible := ⟨legible_nodeRecord (by decide) _, trivial⟩
  have henvelope : (Json.object deepNoteMembers).Legible :=
    ⟨fitsInt_natCast (show 1 < UInt64.size by decide), hlist, legible_nestedList 126, trivial⟩
  have hdepth : (Json.array [nodeRecord 1 []]).depth ≤ nestingLimit := by decide
  have hrefused := Storage.refuses_deep dataStorage Storage.dataDisk (henvelope.document .compact)
    (show nestingLimit < (Json.object deepNoteMembers).depth by decide +kernel)
    (show isDatabaseName "default" = true by decide)
  have hnodes := Storage.readCollection_document Node.ofRecord? Storage.dataDisk
    (hlist.document .compact) (Storage.file_ne_nil (.inl rfl))
    (show dataStorage.reaches (dataStorage.nodesFile "default") = true by decide +kernel)
  rw [if_pos hdepth] at hnodes
  refine ⟨⟨⟨1, rfl, by decide⟩, .absent, rfl⟩, hdepth, hlist.document .compact,
    henvelope.document .compact, ?_, hrefused.nodes (by decide +kernel)⟩
  -- no relationships file is read as no relationships
  refine Storage.load_eq_ok_iff.2 ⟨by decide, _, ⟨[], none⟩, hnodes, ?_, rfl⟩
  exact Storage.readCollection_eq_ok_iff.2
    ⟨by decide +kernel, fun _ => by decide +kernel, .missing⟩

end PropertyGraph
