/-
  PropertyGraph.Proofs.Files.Freshness
  ────────────────────────────────────
  **IDS ARE NEVER REUSED, NOT EVEN OVER FILES.**

  A life of a store is a list of steps: operations of any kind, and times at
  which the store is saved and the life goes on with what is loaded from the
  files.  Each step gives a moment, an answer with the store after it.

  Freshness is about everything a life has shown, entities among it that
  were deleted before a save and left no record.  What carries it over is
  the counter alone: all ids that were ever shown are below it
  (`Store.AllBelow`), every step keeps it or raises it, and a reopened store
  begins with the counters of the store that was saved.  All this holds while
  the ids last (`FitsLife`).
-/
import PropertyGraph.Proofs.Files.Reread
import PropertyGraph.Proofs.Store.Integrity
import PropertyGraph.Proofs.Store.Lifetime

namespace PropertyGraph

/-! ## §1. Lives. -/

/-- One step in the life of a store. -/
inductive LifeStep where
  | operation (operation : StoreOperation)
  /-- The store is saved, and the life goes on with what is loaded again. -/
  | reopening (storage : Storage) (disk : Disk) (name : String)

/-- What a step answers, if it is an operation, and the store after it. -/
structure Moment where
  answer : Option StoreAnswer
  store : Store

namespace Moment

/-- The node is in the store, or its id has just been handed out. -/
def ShowsNode (moment : Moment) (id : NodeId) : Prop :=
  moment.answer = some (.madeNode id) ∨ moment.store.hasNode id = true

/-- The relationship is in the store, or its id has just been handed out. -/
def ShowsRelationship (moment : Moment) (id : RelationshipId) : Prop :=
  moment.answer = some (.madeRelationship (.ok id)) ∨ moment.store.hasRelationship id = true

end Moment

/-- The counter is an id of 64 bits, and no record has the last one. -/
structure Collection.Numbered {ρ : Type} (idOf : ρ → Nat) (collection : Collection ρ) : Prop where
  ids : ∀ record ∈ collection.records, idOf record + 1 < UInt64.size
  nextId : collection.nextId.getD 1 < UInt64.size

/-- Records of ids that a counter has passed. -/
theorem Collection.Reread.numbered {ρ : Type} {idOf : ρ → Nat} {items : List ρ} {nextId : Nat}
    {collection : Collection ρ} (h : collection.Reread idOf items nextId)
    (hitems : ∀ item ∈ items, idOf item < nextId) (hnext : nextId < UInt64.size) :
    collection.Numbered idOf where
  ids record hrecord := by
    have hid : idOf record ∈ items.map idOf := h.ids ▸ List.mem_map_of_mem hrecord
    obtain ⟨item, hitem, heq⟩ := List.mem_map.1 hid
    rw [← heq]
    exact Nat.lt_of_le_of_lt (hitems item hitem) hnext
  nextId := by
    rw [h.nextId]
    exact hnext

namespace Store

/-- What is loaded from the files that the store is saved to, if saving and
loading succeed. -/
def reopened? (store : Store) (storage : Storage) (disk : Disk) (name : String) : Option Store :=
  match storage.save disk name store with
  | (after, .ok ()) => (storage.load after name).toOption
  | (_, .error _) => none

/-- One step; a store that cannot be reopened stays as it is. -/
def live (store : Store) : LifeStep → Moment
  | .operation operation => ⟨some (store.apply operation).1, (store.apply operation).2⟩
  | .reopening storage disk name => ⟨none, (store.reopened? storage disk name).getD store⟩

/-- The moments of a life, the earliest first. -/
def moments (store : Store) : List LifeStep → List Moment
  | [] => []
  | step :: rest => store.live step :: (store.live step).store.moments rest

/-- The store at the end of a life. -/
def lived (store : Store) : List LifeStep → Store
  | [] => store
  | step :: rest => (store.live step).store.lived rest

/-- The step keeps to the ids of 64 bits. -/
def FitsStep (store : Store) : LifeStep → Prop
  | .operation operation => store.Fits operation
  | .reopening _ _ _ => True

instance (store : Store) : ∀ step, Decidable (store.FitsStep step)
  | .operation operation => inferInstanceAs (Decidable (store.Fits operation))
  | .reopening _ _ _ => instDecidableTrue

/-- Every step of a life keeps to the ids of 64 bits. -/
def FitsLife (store : Store) : List LifeStep → Prop
  | [] => True
  | step :: rest => store.FitsStep step ∧ (store.live step).store.FitsLife rest

instance decidableFitsLife (store : Store) : ∀ steps, Decidable (store.FitsLife steps)
  | [] => instDecidableTrue
  | step :: rest => @instDecidableAnd _ _ _ (decidableFitsLife (store.live step).store rest)

/-! ## §2. Reopening. -/

variable {store : Store}

theorem reopened?_eq_some_iff {storage : Storage} {disk : Disk} {name : String} {loaded : Store} :
    store.reopened? storage disk name = some loaded
      ↔ ∃ after, storage.save disk name store = (after, .ok ())
          ∧ storage.load after name = .ok loaded := by
  unfold reopened?
  constructor
  · intro h
    split at h
    next after hsave =>
      refine ⟨after, hsave, ?_⟩
      cases hload : storage.load after name with
      | error error =>
        rw [hload] at h
        cases h
      | ok result =>
        rw [hload] at h
        rw [Option.some.inj h]
    next => cases h
  · rintro ⟨after, hsave, hload⟩
    rw [hsave]
    dsimp only
    rw [hload]
    rfl

/-- Restoring relationships, or reserving their ids, is a run of operations. -/
theorem exists_run_eq_foldl_restoreOrReserve (rs : List Relationship) : ∀ store : Store,
    ∃ operations, rs.foldl restoreOrReserve store = (store.run operations).2
      ∧ ((∀ r ∈ rs, r.id + 1 < UInt64.size) → store.FitsRun operations) := by
  induction rs with
  | nil => exact fun store => ⟨[], rfl, fun _ => trivial⟩
  | cons r rest ih =>
    intro store
    obtain ⟨operation, hoperation, hfits⟩ : ∃ operation,
        store.restoreOrReserve r = (store.apply operation).2
          ∧ (r.id + 1 < UInt64.size → store.Fits operation) := by
      cases hends : store.hasEnds r with
      | true =>
        obtain ⟨after, hrestore, hafter, -⟩ := restoreOrReserve_of_hasEnds hends
        refine ⟨.restoreRelationship r, ?_, fun hid _ => hid⟩
        rw [hafter, Store.apply, hrestore]
      | false =>
        exact ⟨.reserve 1 (nextId r.id), restoreOrReserve_of_not_hasEnds hends,
          fun _ => ⟨by decide, nextId_lt _⟩⟩
    obtain ⟨operations, hrun, hfitsRest⟩ := ih (store.apply operation).2
    refine ⟨operation :: operations, ?_, fun hids => ?_⟩
    · rw [List.foldl_cons, hoperation, hrun]
      rfl
    · obtain ⟨hid, hrest⟩ := List.forall_mem_cons.1 hids
      exact ⟨hfits hid, hfitsRest hrest⟩

theorem foldl_restoreNode_eq_run (nodes : List Node) : ∀ store : Store,
    nodes.foldl restoreNode store = (store.run (nodes.map .restoreNode)).2
      ∧ ((∀ node ∈ nodes, node.id + 1 < UInt64.size) →
        store.FitsRun (nodes.map .restoreNode)) := by
  induction nodes with
  | nil => exact fun store => ⟨rfl, fun _ => trivial⟩
  | cons node rest ih =>
    intro store
    obtain ⟨hrun, hfits⟩ := ih (store.restoreNode node)
    refine ⟨hrun, fun hids => ?_⟩
    obtain ⟨hid, hrest⟩ := List.forall_mem_cons.1 hids
    exact ⟨hid, hfits hrest⟩

/-- **The store of two files is reached by operations**, which keep to the ids
of 64 bits if no record has the last of them. -/
theorem exists_run_eq_ofCollections (nodes : Collection Node)
    (relationships : Collection Relationship) :
    ∃ operations, ofCollections nodes relationships = (empty.run operations).2
      ∧ (nodes.Numbered Node.id → relationships.Numbered Relationship.id →
        empty.FitsRun operations) := by
  obtain ⟨hnodes, hnodesFit⟩ := foldl_restoreNode_eq_run nodes.records empty
  obtain ⟨operations, hrelationships, hrelationshipsFit⟩ :=
    exists_run_eq_foldl_restoreOrReserve relationships.records
      (empty.run (nodes.records.map .restoreNode)).2
  refine ⟨nodes.records.map .restoreNode ++ operations
    ++ [.reserve (nodes.nextId.getD 1) (relationships.nextId.getD 1)], ?_, fun hn hr => ?_⟩
  · rw [run_append, run_append, ← hrelationships, ← hnodes]
    rfl
  · rw [fitsRun_append_iff, fitsRun_append_iff]
    exact ⟨⟨hnodesFit hn.ids, hrelationshipsFit hr.ids⟩, ⟨hn.nextId, hr.nextId⟩, trivial⟩

/-- Whatever the records of two files are, their store is integral. -/
theorem integral_ofCollections (nodes : Collection Node)
    (relationships : Collection Relationship) : Integral (ofCollections nodes relationships) := by
  obtain ⟨operations, heq, -⟩ := exists_run_eq_ofCollections nodes relationships
  exact heq ▸ coherent_empty.toIntegral.run operations

theorem ahead_ofCollections {nodes : Collection Node} {relationships : Collection Relationship}
    (hnodes : nodes.Numbered Node.id) (hrelationships : relationships.Numbered Relationship.id) :
    Ahead (ofCollections nodes relationships) := by
  obtain ⟨operations, heq, hfits⟩ := exists_run_eq_ofCollections nodes relationships
  exact heq ▸ ahead_empty.run (hfits hnodes hrelationships)

/-- The counters of two files are reserved last, whatever the records have
reserved. -/
theorem le_counters_ofCollections (nodes : Collection Node)
    (relationships : Collection Relationship) :
    nodes.nextId.getD 1 ≤ (ofCollections nodes relationships).nextNodeId
      ∧ relationships.nextId.getD 1 ≤ (ofCollections nodes relationships).nextRelationshipId :=
  ⟨Nat.le_max_right _ _, Nat.le_max_right _ _⟩

/-- **In a reopened store the ids have lasted as well, and its counters have not
gone back.**  Its records have the ids that were saved, whatever else became of
them. -/
theorem Ahead.reopened {storage : Storage} {disk : Disk} {name : String} {loaded : Store}
    (hstore : Ahead store) (h : store.reopened? storage disk name = some loaded) :
    Ahead loaded ∧ store.nextNodeId ≤ loaded.nextNodeId
      ∧ store.nextRelationshipId ≤ loaded.nextRelationshipId := by
  obtain ⟨after, hsave, hload⟩ := reopened?_eq_some_iff.1 h
  obtain ⟨hcan, rfl⟩ := Storage.save_eq_ok_iff.1 hsave
  obtain ⟨⟨nodes, relationships, hread, hnodes, hrelationships⟩, -⟩ | ⟨hrefused, -⟩ :=
    Storage.load_saved_cases hstore.bounded.toIntegral hstore.idsFit.inRange hcan
  · rw [hread] at hload
    obtain rfl := Except.ok.inj hload
    obtain ⟨hnode, hrelationship⟩ := le_counters_ofCollections nodes relationships
    rw [hnodes.nextId] at hnode
    rw [hrelationships.nextId] at hrelationship
    exact ⟨ahead_ofCollections
      (hnodes.numbered hstore.idsFit.node_lt hstore.idsFit.nextNodeId_lt)
      (hrelationships.numbered hstore.idsFit.relationship_lt hstore.idsFit.nextRelationshipId_lt),
      hnode, hrelationship⟩
  · rw [hrefused] at hload
    cases hload

/-! ## §3. One step. -/

/-- The store is kept, or another one is loaded in its place. -/
theorem live_reopening (store : Store) (storage : Storage) (disk : Disk) (name : String) :
    (store.live (.reopening storage disk name)).store = store
      ∨ store.reopened? storage disk name
          = some (store.live (.reopening storage disk name)).store := by
  show (store.reopened? storage disk name).getD store = store
    ∨ _ = some ((store.reopened? storage disk name).getD store)
  cases store.reopened? storage disk name with
  | none => exact .inl rfl
  | some loaded => exact .inr rfl

theorem Ahead.live (h : Ahead store) {step : LifeStep} (hfits : store.FitsStep step) :
    Ahead (store.live step).store ∧ store.nextNodeId ≤ (store.live step).store.nextNodeId
      ∧ store.nextRelationshipId ≤ (store.live step).store.nextRelationshipId := by
  cases step with
  | operation operation => exact ⟨h.apply hfits, counters_le_apply hfits⟩
  | reopening storage disk name =>
    rcases store.live_reopening storage disk name with hkept | hloaded
    · rw [hkept]
      exact ⟨h, Nat.le_refl _, Nat.le_refl _⟩
    · exact h.reopened hloaded

/-- An id that is handed out is that of the counter, which is past it then. -/
theorem eq_counter_of_madeNode {step : LifeStep} {id : NodeId}
    (h : (store.live step).answer = some (.madeNode id)) :
    id = store.nextNodeId
      ∧ (store.FitsStep step → id < (store.live step).store.nextNodeId) := by
  cases step with
  | reopening storage disk name => cases h
  | operation operation =>
    have hmade := Option.some.inj h
    have hid := eq_nextNodeId_of_madeNode hmade
    refine ⟨hid, fun hfits => ?_⟩
    obtain ⟨labels, properties, rfl⟩ := exists_createNode_of_madeNode hmade
    exact hid ▸ lt_nextId hfits

theorem eq_counter_of_madeRelationship {step : LifeStep} {id : RelationshipId}
    (h : (store.live step).answer = some (.madeRelationship (.ok id))) :
    id = store.nextRelationshipId
      ∧ (store.FitsStep step → id < (store.live step).store.nextRelationshipId) := by
  cases step with
  | reopening storage disk name => cases h
  | operation operation =>
    have hmade := Option.some.inj h
    obtain ⟨type, start, end_, properties, after, rfl, hcreate⟩ :=
      exists_createRelationship_of_madeRelationship hmade
    obtain ⟨henters, hid⟩ := entersRelationship_createRelationship hcreate
    refine ⟨hid, fun hfits => ?_⟩
    show id < (store.apply _).2.nextRelationshipId
    rw [Store.apply, hcreate]
    exact henters.id_lt (hid ▸ hfits henters.danglingEnd?_eq_none)

/-- What a moment shows is below the counters of its store. -/
theorem Ahead.lt_of_shown (h : Ahead store) {step : LifeStep} (hfits : store.FitsStep step) :
    (∀ id, (store.live step).ShowsNode id → id < (store.live step).store.nextNodeId)
      ∧ ∀ id, (store.live step).ShowsRelationship id →
          id < (store.live step).store.nextRelationshipId := by
  have hafter := (h.live hfits).1.bounded.passesIds
  constructor
  · rintro id (hmade | hpresent)
    · exact (eq_counter_of_madeNode hmade).2 hfits
    · exact hafter.node_lt id hpresent
  · rintro id (hmade | hpresent)
    · exact (eq_counter_of_madeRelationship hmade).2 hfits
    · exact hafter.relationship_lt id hpresent

/-! ## §4. Whole lives. -/

/-- Everything that was shown so far is below the counters, which have never
been higher. -/
structure AllBelow (past : List Moment) (store : Store) : Prop where
  node : ∀ moment ∈ past, ∀ id, moment.ShowsNode id → id < store.nextNodeId
  relationship : ∀ moment ∈ past, ∀ id, moment.ShowsRelationship id →
    id < store.nextRelationshipId
  counters : ∀ moment ∈ past, moment.store.nextNodeId ≤ store.nextNodeId
    ∧ moment.store.nextRelationshipId ≤ store.nextRelationshipId

/-- **One step adds its moment to the past.** -/
theorem AllBelow.live {past : List Moment} (h : AllBelow past store) (hstore : Ahead store)
    {step : LifeStep} (hfits : store.FitsStep step) :
    AllBelow (past ++ [store.live step]) (store.live step).store := by
  obtain ⟨-, hnode, hrelationship⟩ := hstore.live hfits
  obtain ⟨hshownNode, hshownRelationship⟩ := hstore.lt_of_shown hfits
  -- what was below the counters still is, and so is what the step itself shows
  constructor
  · intro moment hmoment id hshown
    rcases List.mem_append.1 hmoment with hpast | hnow
    · exact Nat.lt_of_lt_of_le (h.node moment hpast id hshown) hnode
    · exact hshownNode id (List.mem_singleton.1 hnow ▸ hshown)
  · intro moment hmoment id hshown
    rcases List.mem_append.1 hmoment with hpast | hnow
    · exact Nat.lt_of_lt_of_le (h.relationship moment hpast id hshown) hrelationship
    · exact hshownRelationship id (List.mem_singleton.1 hnow ▸ hshown)
  · intro moment hmoment
    rcases List.mem_append.1 hmoment with hpast | hnow
    · obtain ⟨hnode', hrelationship'⟩ := h.counters moment hpast
      exact ⟨Nat.le_trans hnode' hnode, Nat.le_trans hrelationship' hrelationship⟩
    · rw [List.mem_singleton.1 hnow]
      exact ⟨Nat.le_refl _, Nat.le_refl _⟩

theorem AllBelow.moments {steps : List LifeStep} : ∀ {past : List Moment} {store : Store},
    AllBelow past store → Ahead store → store.FitsLife steps →
    AllBelow (past ++ store.moments steps) (store.lived steps)
      ∧ Ahead (store.lived steps) := by
  -- for any past and any store, since both change with every step
  induction steps with
  | nil =>
    intro past store h hstore _
    rw [Store.moments, List.append_nil]
    exact ⟨h, hstore⟩
  | cons step rest ih =>
    intro past store h hstore hfits
    rw [Store.moments, List.append_cons]
    exact ih (h.live hstore hfits.1) (hstore.live hfits.1).1 hfits.2

/-- The moment comes after all moments of the past without reusing an id. -/
structure Fresh (past : List Moment) (store : Store) (now : Moment) : Prop where
  node : ∀ id, now.answer = some (.madeNode id) →
    ∀ moment ∈ past, ∀ old, moment.ShowsNode old → old < id
  relationship : ∀ id, now.answer = some (.madeRelationship (.ok id)) →
    ∀ moment ∈ past, ∀ old, moment.ShowsRelationship old → old < id
  /-- Neither counter is lower than it was at any time. -/
  counters : ∀ moment ∈ past, moment.store.nextNodeId ≤ now.store.nextNodeId
    ∧ moment.store.nextRelationshipId ≤ now.store.nextRelationshipId
  counters_store : store.nextNodeId ≤ now.store.nextNodeId
    ∧ store.nextRelationshipId ≤ now.store.nextRelationshipId
  /-- A refused relationship changes nothing, so it takes no id. -/
  refused : ∀ error, now.answer = some (.madeRelationship (.error error)) → now.store = store

/-- **Ids are never reused.**  However long a store has lived, whatever was
restored in it and however often it was saved and loaded: while the ids of 64
bits last, the next id it hands out is greater than every id that it has ever
handed out or held. -/
theorem fresh_live (steps : List LifeStep) (step : LifeStep) (hfits : empty.FitsLife steps)
    (hstep : (empty.lived steps).FitsStep step) :
    Fresh (empty.moments steps) (empty.lived steps) ((empty.lived steps).live step) := by
  -- a life begins with nothing behind it
  have hnone : AllBelow [] empty :=
    ⟨fun _ h => absurd h List.not_mem_nil, fun _ h => absurd h List.not_mem_nil,
      fun _ h => absurd h List.not_mem_nil⟩
  obtain ⟨hpast, hstore⟩ := AllBelow.moments hnone ahead_empty hfits
  rw [List.nil_append] at hpast
  obtain ⟨-, hnodeLe, hrelationshipLe⟩ := hstore.live hstep
  constructor
  · intro id hmade moment hmoment old hshown
    rw [(eq_counter_of_madeNode hmade).1]
    exact hpast.node moment hmoment old hshown
  · intro id hmade moment hmoment old hshown
    rw [(eq_counter_of_madeRelationship hmade).1]
    exact hpast.relationship moment hmoment old hshown
  · intro moment hmoment
    obtain ⟨hnode, hrelationship⟩ := hpast.counters moment hmoment
    exact ⟨Nat.le_trans hnode hnodeLe, Nat.le_trans hrelationship hrelationshipLe⟩
  · exact ⟨hnodeLe, hrelationshipLe⟩
  · intro error hrefused
    cases step with
    | reopening storage disk name => cases hrefused
    | operation operation =>
      have hanswer := Option.some.inj hrefused
      exact apply_of_failed (hanswer ▸ trivial)

/-- Two nodes; the second one is deleted, and the store saved and loaded. -/
def reopenedLife : List LifeStep :=
  [.operation (.createNode [] ∅), .operation (.createNode [] ∅), .operation (.deleteNode 2),
    .reopening ⟨["data"], "data", .indented⟩ Storage.dataDisk "graph"]

/-- The id of the deleted node is not handed out after loading either. -/
theorem fresh_live_reopenedLife :
    empty.FitsLife reopenedLife
      ∧ (empty.lived reopenedLife).FitsStep (.operation (.createNode [] ∅))
      ∧ (empty.lived reopenedLife).allNodes.map (·.id) = [1]
      ∧ ((empty.lived reopenedLife).live (.operation (.createNode [] ∅))).store.allNodes.map (·.id)
        = [1, 3]
      ∧ Fresh (empty.moments reopenedLife) (empty.lived reopenedLife)
        ((empty.lived reopenedLife).live (.operation (.createNode [] ∅))) := by
  have hfits : empty.FitsLife reopenedLife := by decide +kernel
  have hstep : (empty.lived reopenedLife).FitsStep (.operation (.createNode [] ∅)) := by
    decide +kernel
  exact ⟨hfits, hstep, by decide +kernel, by decide +kernel, fresh_live _ _ hfits hstep⟩

end Store

end PropertyGraph
