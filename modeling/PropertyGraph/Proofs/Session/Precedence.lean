/-
  PropertyGraph.Proofs.Session.Precedence
  ───────────────────────────────────────
  **NOTHING COMES BACK UNDER AN OLD ID.**

  An id is ISSUED once the counter has passed it.  A store PRECEDES another one
  if whatever that has under an issued id was there already, just as it is.  So
  an entity that is found under an old id is the one that was found there
  before, and has been there all the time (`Precedes.inStore`).

  A statement leads to a store that the one before precedes, as long as the
  ids last (`precedes_execute`), and so do passages to other databases and
  back.  What is read again is another matter: the files may hold something
  else under an old id, and without files the ids begin anew.  An action is
  FAITHFUL to a database if it reads under old ids only what is in memory, and
  makes nothing where no ids are left.  Over faithful actions each database in
  memory precedes what becomes of it (`precedes_actAll`).  What it has under an
  old id in the end, it has had at every moment (`inStore_of_precedes`).
-/
import PropertyGraph.Proofs.Session.Create
import PropertyGraph.Proofs.Session.History
import PropertyGraph.Proofs.Session.World

namespace PropertyGraph

open PropertyGraph.Query PropertyGraph.Search

/-! ## §1. Stores. -/

namespace Store

variable {store after last : Store} {ref : EntityRef} {entity : Entity}

/-- The id has been handed out. -/
def Issued (store : Store) : EntityRef → Prop
  | .node id => id < store.nextNodeId
  | .relationship id => id < store.nextRelationshipId

theorem Bounded.issued (h : Bounded store) (hentity : InStore store entity) :
    store.Issued entity.identity := by
  cases entity with
  | node node => exact h.node_lt hentity
  | relationship r => exact h.relationship_lt hentity

theorem issued_of_le (hnode : store.nextNodeId ≤ after.nextNodeId)
    (hrelationship : store.nextRelationshipId ≤ after.nextRelationshipId)
    (h : store.Issued ref) : after.Issued ref := by
  cases ref with
  | node id => exact Nat.lt_of_lt_of_le h hnode
  | relationship id => exact Nat.lt_of_lt_of_le h hrelationship

/-- What `after` has under an issued id, `store` has as well. -/
structure Precedes (store after : Store) : Prop where
  issued : ∀ {ref}, store.Issued ref → after.Issued ref
  inStore : ∀ {entity : Entity}, store.Issued entity.identity → InStore after entity →
    InStore store entity

theorem Precedes.refl (store : Store) : store.Precedes store := ⟨id, fun _ h => h⟩

theorem Precedes.trans (h : store.Precedes after) (h' : after.Precedes last) :
    store.Precedes last where
  issued hissued := h'.issued (h.issued hissued)
  inStore hissued hlast := h.inStore hissued (h'.inStore (h.issued hissued) hlast)

/-- The same graph, whatever the indices are. -/
theorem precedes_of_plain_eq (h : after.plain = store.plain) : store.Precedes after := by
  have hnodes : after.nodes = store.nodes := congrArg PlainGraph.nodes h
  have hrelationships : after.relationships = store.relationships :=
    congrArg PlainGraph.relationships h
  have hnode : after.nextNodeId = store.nextNodeId := congrArg PlainGraph.nextNodeId h
  have hrelationship : after.nextRelationshipId = store.nextRelationshipId :=
    congrArg PlainGraph.nextRelationshipId h
  refine ⟨issued_of_le (Nat.le_of_eq hnode.symm) (Nat.le_of_eq hrelationship.symm), ?_⟩
  intro entity _ hentity
  cases entity with
  | node node =>
    show store.nodes.find? node.id = some node
    rw [← hnodes]
    exact hentity
  | relationship r =>
    show store.relationships.find? r.id = some r
    rw [← hrelationships]
    exact hentity

/-- New entities come under new ids. -/
theorem Extends.precedes {nodes : List Node} {relationships : List Relationship}
    (h : store.Extends after nodes relationships) (hstore : Integral store)
    (hafter : Integral after) : store.Precedes after := by
  refine ⟨issued_of_le (h.nextNodeId ▸ Nat.le_add_right _ _)
    (h.nextRelationshipId ▸ Nat.le_add_right _ _), ?_⟩
  intro entity hissued hentity
  cases entity with
  | node node =>
    have hmem := hafter.mem_allNodes_iff.2 hentity
    rw [h.allNodes] at hmem
    rcases List.mem_append.1 hmem with hold | hnew
    · exact hstore.mem_allNodes_iff.1 hold
    · have hid : node.id ∈ nodes.map (·.id) := List.mem_map_of_mem hnew
      rw [h.nodeIds, List.mem_range'_1] at hid
      exact absurd hissued (Nat.not_lt_of_le hid.1)
  | relationship r =>
    have hmem := hafter.mem_allRelationships_iff.2 hentity
    rw [h.allRelationships] at hmem
    rcases List.mem_append.1 hmem with hold | hnew
    · exact hstore.mem_allRelationships_iff.1 hold
    · have hid : r.id ∈ relationships.map (·.id) := List.mem_map_of_mem hnew
      rw [h.relationshipIds, List.mem_range'_1] at hid
      exact absurd hissued (Nat.not_lt_of_le hid.1)

theorem deleteEntity_of_no_node {gone : NodeId} (h : store.node? gone = none) :
    Session.deleteEntity store (.node gone) = store :=
  deleteEntity_of_absent (fun _ heq => EntityRef.node.inj heq ▸ h) (fun _ heq => nomatch heq)

/-- What is left after a deletion was there before. -/
theorem inStore_of_deleteEntity (h : InStore (Session.deleteEntity store ref) entity) :
    InStore store entity := by
  cases entity with
  | node node => exact (node?_deleteEntity_eq_some_iff.1 h).1
  | relationship r =>
    cases ref with
    | relationship gone => exact (relationship?_deleteRelationship_eq_some_iff.1 h).2
    | node gone =>
      cases hgone : store.node? gone with
      | some node => exact ((relationship?_deleteNode hgone).1 h).1
      | none =>
        rwa [deleteEntity_of_no_node hgone] at h

theorem precedes_deleteEntity (store : Store) (ref : EntityRef) :
    store.Precedes (Session.deleteEntity store ref) := by
  refine ⟨?_, fun _ h => inStore_of_deleteEntity h⟩
  cases ref with
  | node gone =>
    obtain ⟨hnode, hrelationship⟩ := counters_deleteNode store gone
    exact issued_of_le (Nat.le_of_eq hnode.symm) (Nat.le_of_eq hrelationship.symm)
  | relationship gone =>
    obtain ⟨-, -, hnode, hrelationship⟩ := deleteRelationship_nodes store gone
    exact issued_of_le (Nat.le_of_eq hnode.symm) (Nat.le_of_eq hrelationship.symm)

theorem precedes_foldl_deleteEntity (gone : List EntityRef) : ∀ store : Store,
    store.Precedes (gone.foldl Session.deleteEntity store) := by
  induction gone with
  | nil => exact Precedes.refl
  | cons ref rest ih => exact fun store => (precedes_deleteEntity store ref).trans (ih _)

theorem Bounded.deleteEntity (h : Bounded store) (ref : EntityRef) :
    Bounded (Session.deleteEntity store ref) := by
  cases ref with
  | node gone => exact h.deleteNode gone
  | relationship gone => exact h.deleteRelationship gone

theorem Bounded.foldl_deleteEntity (gone : List EntityRef) : ∀ {store : Store}, Bounded store →
    Bounded (gone.foldl Session.deleteEntity store) := by
  induction gone with
  | nil => exact fun h => h
  | cons ref rest ih => exact fun h => ih (h.deleteEntity ref)

end Store

/-! ## §2. Statements. -/

namespace Session

variable {session : Session} {name : String} {store : Store}

theorem obtainable_of_becomes {p : PropertyMap → Prop} {after : Store}
    (h : store.Obtainable) (hafter : store.Becomes p after) : after.Obtainable := by
  obtain ⟨operations, -, rfl⟩ := hafter
  exact h.run operations

/-- Any properties may be carried. -/
theorem carries_any (statement : GraphStatement) : statement.Carries (fun _ => True) := by
  cases statement with
  | create pattern => exact fun _ _ _ _ => trivial
  | search | project | delete => exact trivial

/-- **One statement**, while the ids last. -/
theorem precedes_execute (h : session.store.Bounded) {statement : GraphStatement}
    (hroom : session.HasRoom statement) :
    session.store.Precedes (session.execute statement).1.store
      ∧ (session.execute statement).1.store.Bounded := by
  cases statement with
  | search pattern condition => exact ⟨.refl _, h⟩
  | project vars distinct => exact ⟨.refl _, h⟩
  | delete vars =>
    rw [execute, store_delete]
    exact ⟨Store.precedes_foldl_deleteEntity _ _, h.foldl_deleteEntity _⟩
  | create pattern =>
    rw [execute]
    cases herror : Creation.error? pattern with
    | some error =>
      rw [create_of_error herror]
      exact ⟨.refl _, h⟩
    | none =>
      obtain ⟨after, hafter, -, hgrown, hcreate⟩ :=
        create_of_canBeMade h (hroom herror) (Creation.error?_eq_none_iff.1 herror)
      rw [hcreate, store_saved, store_withStore]
      exact ⟨hgrown.precedes h.toIntegral hafter.toIntegral, hafter⟩

/-! ## §3. Resident databases. -/

/-- Every store in memory is one that there can be. -/
def AllObtainable (session : Session) : Prop :=
  ∀ name store, session.catalog.resident? name = some store → store.Obtainable

theorem AllObtainable.takes {after : Session} (h : session.AllObtainable)
    (htakes : session.catalog.Takes after.catalog name store) (hstore : store.Obtainable) :
    after.AllObtainable := by
  intro other found hresident
  rw [htakes.resident?] at hresident
  split at hresident
  next => exact Option.some.inj hresident ▸ hstore
  next => exact h _ _ hresident

theorem obtainable_of_read {storage : Option Storage} {disk : Disk}
    (h : Catalog.read storage disk name = .ok store) : store.Obtainable := by
  cases storage with
  | none => exact Except.ok.inj h ▸ .empty
  | some storage => exact .load h

/-- The action does not make up anything under an old id of the database.  If
it makes something there, there are ids left for it; if it reads the database
again, it reads under old ids only what is in memory, and all ids that it reads
are old then. -/
def FaithfulTo (session : Session) (name : String) : SessionAction → Prop
  | .execute statement => session.catalog.currentName = name → session.HasRoom statement
  | .select _ => True
  | .reload other => other = name → ∀ {old read}, session.catalog.resident? name = some old →
      Catalog.read session.catalog.storage session.disk name = .ok read →
      old.Precedes read ∧ read.Bounded

/-- One database is taken, and is preceded by what was in memory under its
name, if the action is faithful to it. -/
def Moves (session : Session) (action : SessionAction) (after : Catalog) : Prop :=
  ∃ name store, session.catalog.Takes after name store ∧ store.Obtainable
    ∧ ∀ old, session.catalog.resident? name = some old → session.FaithfulTo name action →
        old.Bounded → old.Precedes store ∧ store.Bounded

/-- Nothing has changed, as when an action fails. -/
theorem moves_self (h : session.AllObtainable) (action : SessionAction) :
    session.Moves action session.catalog := by
  refine ⟨_, _, Catalog.takes_self _, h _ _ Catalog.resident?_currentName,
    fun old hold _ hbounded => ?_⟩
  rw [Catalog.resident?_currentName] at hold
  obtain rfl := Option.some.inj hold
  exact ⟨.refl _, hbounded⟩

theorem moves_execute (h : session.AllObtainable) (statement : GraphStatement) :
    session.Moves (.execute statement) (session.execute statement).1.catalog := by
  have hcurrent := h _ _ Catalog.resident?_currentName
  rw [catalog_execute]
  refine ⟨_, _, Catalog.takes_current _ _, ?_, fun old hold hroom hbounded => ?_⟩
  · exact obtainable_of_becomes hcurrent (becomes_execute (carries_any statement))
  · rw [Catalog.resident?_currentName] at hold
    obtain rfl := Option.some.inj hold
    exact precedes_execute hbounded (hroom rfl)

theorem moves_select (h : session.AllObtainable) (name : String) :
    session.Moves (.select name) (session.select name).1.catalog := by
  unfold select
  cases hname : validateName name with
  | error error =>
    rw [(Catalog.not_selected_of_invalid hname).1]
    exact moves_self h _
  | ok =>
    cases hselected : session.catalog.selected session.disk name with
    | error error =>
      rw [Catalog.select_of_error hname hselected]
      exact moves_self h _
    | ok store =>
      obtain ⟨after, hselect, htakes⟩ := Catalog.takes_of_select hname hselected
      rw [hselect]
      unfold Catalog.selected at hselected
      refine ⟨name, store, htakes, ?_, fun old hold _ hbounded => ?_⟩
      · split at hselected
        next hresident => exact Except.ok.inj hselected ▸ h _ _ hresident
        next => exact obtainable_of_read hselected
      · rw [hold] at hselected
        obtain rfl := Except.ok.inj hselected
        exact ⟨.refl _, hbounded⟩

theorem moves_reload (h : session.AllObtainable) (name : String) :
    session.Moves (.reload name) (session.reload name).1.catalog := by
  unfold reload
  cases hname : validateName name with
  | error error =>
    rw [(Catalog.not_selected_of_invalid hname).2]
    exact moves_self h _
  | ok =>
    cases hread : Catalog.read session.catalog.storage session.disk name with
    | error error =>
      rw [Catalog.reload_of_error hname hread]
      exact moves_self h _
    | ok store =>
      obtain ⟨after, hreload, htakes⟩ := Catalog.takes_of_reload hname hread
      rw [hreload]
      exact ⟨name, store, htakes, obtainable_of_read hread,
        fun _ hold hfaithful _ => hfaithful rfl hold hread⟩

/-- **What an action does to the databases in memory.** -/
theorem moves_act (h : session.AllObtainable) (action : SessionAction) :
    session.Moves action (session.act action).catalog := by
  cases action with
  | execute statement => exact moves_execute h statement
  | select name => exact moves_select h name
  | reload name => exact moves_reload h name

theorem AllObtainable.act (h : session.AllObtainable) (action : SessionAction) :
    (session.act action).AllObtainable := by
  obtain ⟨name, store, htakes, hstore, -⟩ := moves_act h action
  exact h.takes htakes hstore

theorem AllObtainable.actAll (actions : List SessionAction) : ∀ {session : Session},
    session.AllObtainable → (session.actAll actions).AllObtainable := by
  induction actions with
  | nil => exact fun h => h
  | cons action rest ih => exact fun h => ih (h.act action)

/-- All actions are, each when its turn comes. -/
def AllFaithfulTo (session : Session) (name : String) (actions : List SessionAction) : Prop :=
  session.Each (fun before action => before.FaithfulTo name action) actions

/-- **One action.** -/
theorem precedes_act (h : session.AllObtainable) {action : SessionAction}
    (hfaithful : session.FaithfulTo name action)
    (hresident : session.catalog.resident? name = some store) (hstore : store.Bounded) :
    ∃ after, (session.act action).catalog.resident? name = some after
      ∧ store.Precedes after ∧ after.Bounded := by
  obtain ⟨taken, after, htakes, -, hafter⟩ := moves_act h action
  by_cases hsame : name = taken
  · subst hsame
    exact ⟨after, by rw [htakes.resident?, if_pos rfl], hafter store hresident hfaithful hstore⟩
  · exact ⟨store, by rw [htakes.resident?, if_neg hsame, hresident], .refl store, hstore⟩

/-- **Any number of them.** -/
theorem precedes_actAll {actions : List SessionAction} : ∀ {session : Session} {store : Store},
    session.AllObtainable → session.AllFaithfulTo name actions →
    session.catalog.resident? name = some store → store.Bounded →
    ∃ after, (session.actAll actions).catalog.resident? name = some after
      ∧ store.Precedes after ∧ after.Bounded := by
  induction actions with
  | nil => exact fun _ _ hresident hstore => ⟨_, hresident, .refl _, hstore⟩
  | cons action rest ih =>
    intro session store h hfaithful hresident hstore
    obtain ⟨hfirst, hrest⟩ := hfaithful
    obtain ⟨next, hnext, hprecedes, hbounded⟩ := precedes_act h hfirst hresident hstore
    obtain ⟨after, hafter, hprecedes', hbounded'⟩ := ih (h.act action) hrest hnext hbounded
    exact ⟨after, hafter, hprecedes.trans hprecedes', hbounded'⟩

/-- **What is there under an old id has been there all the time.** -/
theorem inStore_of_precedes {last : Store} {entity : Entity} {first rest : List SessionAction}
    (h : session.AllObtainable) (hfaithful : session.AllFaithfulTo name (first ++ rest))
    (hresident : session.catalog.resident? name = some store) (hstore : store.Bounded)
    (hlast : (session.actAll (first ++ rest)).catalog.resident? name = some last)
    (hissued : store.Issued entity.identity) (hthere : InStore last entity) :
    ∃ moment, (session.actAll first).catalog.resident? name = some moment
      ∧ InStore moment entity := by
  obtain ⟨hfirst, hrest⟩ := each_append_iff.1 hfaithful
  obtain ⟨moment, hmoment, hprecedes, hbounded⟩ := precedes_actAll h hfirst hresident hstore
  obtain ⟨after, hafter, hprecedes', -⟩ :=
    precedes_actAll (h.actAll first) hrest hmoment hbounded
  rw [← actAll_append, hlast] at hafter
  obtain rfl := Option.some.inj hafter
  exact ⟨moment, hmoment, hprecedes'.inStore (hprecedes.issued hissued) hthere⟩

/-! ## §4. Any beginning. -/

theorem allObtainable_of_open {settings : Settings} {disk opened : Disk} {catalog : Catalog}
    (hopen : Catalog.open settings disk = (opened, .ok catalog)) :
    (start catalog opened).AllObtainable := by
  obtain ⟨-, store, storage, hread, rfl⟩ := Catalog.exists_of_open hopen
  intro other found hresident
  rw [Catalog.resident?_eq] at hresident
  split at hresident
  next => exact Option.some.inj hresident ▸ obtainable_of_read hread
  next => cases hresident

theorem AllObtainable.work (h : session.AllObtainable) (work : SessionWork) :
    (session.work work).1.AllObtainable := by
  have hcurrent := h _ _ Catalog.resident?_currentName
  have htakes : session.catalog.Takes (session.work work).1.catalog session.catalog.currentName
      (session.work work).1.store := by
    rw [catalog_work]
    exact Catalog.takes_current _ _
  refine h.takes htakes ?_
  cases work with
  | run text =>
    show (session.run text).1.store.Obtainable
    unfold Session.run
    split
    next => exact hcurrent
    next => exact obtainable_of_becomes hcurrent (becomes_executeAll fun _ _ => carries_any _)
  | execute statements =>
    exact obtainable_of_becomes hcurrent (becomes_executeAll fun _ _ => carries_any _)
  | change operation => exact hcurrent.apply operation
  | save => exact hcurrent
  | restart => exact hcurrent
  | files disk => exact hcurrent

theorem AllObtainable.use (h : session.AllObtainable) (use : CatalogUse) :
    (session.use use).1.AllObtainable := by
  cases use with
  | «open» settings =>
    unfold Session.use
    dsimp only
    split
    next => exact h
    next hopen =>
      exact allObtainable_of_open hopen
  | select name => exact h.act (.select name)
  | reload name => exact h.act (.reload name)
  | work work => exact h.work work

theorem AllObtainable.runUses (uses : List CatalogUse) : ∀ {session : Session},
    session.AllObtainable → (session.runUses uses).1.AllObtainable := by
  induction uses with
  | nil => exact fun h => h
  | cons use rest ih => exact fun h => ih (h.use use)

/-- A session that begins on databases that have been used in any way. -/
def beginning (disk : Disk) (uses : List CatalogUse) : Session :=
  let used := ((start .inMemory disk).runUses uses).1
  start used.catalog used.disk

theorem allObtainable_beginning (disk : Disk) (uses : List CatalogUse) :
    (beginning disk uses).AllObtainable := by
  have hstart : (start .inMemory disk).AllObtainable := by
    intro name store hresident
    rw [Catalog.resident?_eq] at hresident
    split at hresident
    next => exact Option.some.inj hresident ▸ .empty
    next => cases hresident
  exact hstart.runUses uses

end Session

end PropertyGraph
