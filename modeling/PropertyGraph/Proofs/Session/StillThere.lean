/-
  PropertyGraph.Proofs.Session.StillThere
  ───────────────────────────────────────
  **DELETE REMOVES WHAT WAS FOUND.**

  DELETE goes by ids that the last search has found, perhaps long ago and in
  another database.  It removes only what has such an id (`WasFound`), and
  whatever else goes are relationships that the indices list at the nodes
  among it when these go (`goes_iff`).  Where the indices are exact, these are
  the relationships that start or end there (`Cascades.touches`).

  If the database of the search is current again, no file has put something
  else under an old id in the meantime, and the ids have lasted, then what is
  removed is the very entity that was found: it has been in that database all
  the time, just as it was (`delete_removesFound`).  No file does so as long as
  only the session writes them and nothing goes wrong (`removes_found`).
  Otherwise it can be another one with the same id (`delete_removesOther`,
  `removesOther_lastId`).
-/
import PropertyGraph.Proofs.Search.Held
import PropertyGraph.Proofs.Session.Precedence
import PropertyGraph.Proofs.Session.Reopened

namespace PropertyGraph

open PropertyGraph.Query PropertyGraph.Search

/-! ## §1. One deletion. -/

namespace Store

variable {store : Store} {ref : EntityRef} {entity : Entity}

theorem inStore_of_foldl_deleteEntity {gone : List EntityRef} : ∀ {store : Store},
    InStore (gone.foldl Session.deleteEntity store) entity → InStore store entity := by
  induction gone with
  | nil => exact fun h => h
  | cons ref rest ih => exact fun h => inStore_of_deleteEntity (ih h)

/-- What has been deleted is not there. -/
theorem not_inStore_deleteEntity (store : Store) (entity : Entity) :
    ¬ InStore (Session.deleteEntity store entity.identity) entity := by
  intro h
  cases entity with
  | node node => exact (node?_deleteEntity_eq_some_iff.1 h).2 rfl
  | relationship r => exact (relationship?_deleteRelationship_eq_some_iff.1 h).1 rfl

/-- The relationship is listed at the node that is deleted. -/
theorem not_inStore_deleteEntity_of_listedAt {node : Node} {r : Relationship}
    (hnode : InStore store (.node node)) (hlisted : store.ListedAt node.id r.id) :
    ¬ InStore (Session.deleteEntity store (.node node.id)) (.relationship r) :=
  fun h => ((relationship?_deleteNode hnode).1 h).2 hlisted

/-- What goes in a deletion is what is deleted, or a relationship that is listed
at the node. -/
theorem identity_or_listedAt (hstore : Integral store) (h : InStore store entity)
    (hgone : ¬ InStore (Session.deleteEntity store ref) entity) :
    ref = entity.identity
      ∨ ∃ r node, entity = .relationship r ∧ ref = .node node.id ∧ InStore store (.node node)
          ∧ store.ListedAt node.id r.id := by
  cases entity with
  | node node =>
    exact .inl (Decidable.byContradiction fun hne =>
      hgone (node?_deleteEntity_eq_some_iff.2 ⟨h, fun heq => hne heq.symm⟩))
  | relationship r =>
    cases ref with
    | relationship gone =>
      refine .inl (Decidable.byContradiction fun hne => hgone ?_)
      exact relationship?_deleteRelationship_eq_some_iff.2
        ⟨fun heq => hne (congrArg EntityRef.relationship heq.symm), h⟩
    | node gone =>
      cases hnode : store.node? gone with
      | none =>
        rw [deleteEntity_of_no_node hnode] at hgone
        exact absurd h hgone
      | some node =>
        obtain rfl : node.id = gone := hstore.node_id hnode
        refine .inr ⟨r, node, rfl, rfl, hnode, Classical.byContradiction fun hnot => hgone ?_⟩
        exact (relationship?_deleteNode hnode).2 ⟨h, hnot⟩

end Store

/-! ## §2. What a DELETE removes. -/

namespace Session

variable {session : Session} {vars : List String} {entity removed : Entity}

/-- DELETE comes to the entity while it is there, so it removes it. -/
def Removes (session : Session) (vars : List String) (entity : Entity) : Prop :=
  ∃ earlier later,
    session.lastMatch.flatMap (boundEntities vars) = earlier ++ entity.identity :: later
      ∧ InStore (earlier.foldl deleteEntity session.store) entity

/-- DELETE comes to a node while it is there and the relationship is listed at
it, so the relationship goes with the node. -/
def Cascades (session : Session) (vars : List String) (r : Relationship) : Prop :=
  ∃ node earlier later,
    session.lastMatch.flatMap (boundEntities vars) = earlier ++ .node node.id :: later
      ∧ InStore (earlier.foldl deleteEntity session.store) (.node node)
      ∧ InStore (earlier.foldl deleteEntity session.store) (.relationship r)
      ∧ (earlier.foldl deleteEntity session.store).ListedAt node.id r.id

theorem Removes.inStore (h : session.Removes vars entity) : InStore session.store entity := by
  obtain ⟨earlier, later, -, hthere⟩ := h
  exact Store.inStore_of_foldl_deleteEntity hthere

theorem Removes.names (h : session.Removes vars entity) :
    Names session.lastMatch vars entity.identity := by
  obtain ⟨earlier, later, hsplit, -⟩ := h
  refine mem_boundEntities_iff.1 ?_
  rw [hsplit]
  exact List.mem_append_right _ List.mem_cons_self

/-- It is gone then. -/
theorem Removes.gone (h : session.Removes vars entity) :
    ¬ InStore (session.delete vars).1.store entity := by
  obtain ⟨earlier, later, hsplit, -⟩ := h
  rw [store_delete, deleteBound, hsplit, List.foldl_append, List.foldl_cons]
  exact fun hthere =>
    Store.not_inStore_deleteEntity _ entity (Store.inStore_of_foldl_deleteEntity hthere)

/-- Some deletion of several is the one in which the entity goes. -/
theorem exists_deletion {gone : List EntityRef} : ∀ {store : Store}, InStore store entity →
    ¬ InStore (gone.foldl deleteEntity store) entity →
    ∃ earlier ref later, gone = earlier ++ ref :: later
      ∧ InStore (earlier.foldl deleteEntity store) entity
      ∧ ¬ InStore (deleteEntity (earlier.foldl deleteEntity store) ref) entity := by
  induction gone with
  | nil => exact fun h hgone => absurd h hgone
  | cons ref rest ih =>
    intro store h hgone
    by_cases hthere : InStore (deleteEntity store ref) entity
    · obtain ⟨earlier, last, later, rfl, hbefore, hafter⟩ := ih hthere hgone
      exact ⟨ref :: earlier, last, later, rfl, hbefore, hafter⟩
    · exact ⟨[], ref, rest, rfl, h, hthere⟩

theorem Cascades.gone {r : Relationship} (h : session.Cascades vars r) :
    InStore session.store (.relationship r)
      ∧ ¬ InStore (session.delete vars).1.store (.relationship r) := by
  obtain ⟨node, earlier, later, hsplit, hnode, hthere, hlisted⟩ := h
  refine ⟨Store.inStore_of_foldl_deleteEntity hthere, ?_⟩
  rw [store_delete, deleteBound, hsplit, List.foldl_append, List.foldl_cons]
  exact fun hlater => Store.not_inStore_deleteEntity_of_listedAt hnode hlisted
    (Store.inStore_of_foldl_deleteEntity hlater)

/-- **With exact indices, a relationship goes with a node at which it starts or
ends.** -/
theorem Cascades.touches {r : Relationship} (hstore : session.store.Coherent)
    (h : session.Cascades vars r) :
    ∃ node, session.Removes vars (.node node) ∧ r.touches node.id = true := by
  obtain ⟨node, earlier, later, hsplit, hnode, hthere, hlisted⟩ := h
  have hmoment : (earlier.foldl deleteEntity session.store).Coherent :=
    (hstore.without_foldl_deleteEntity earlier).coherent
  exact ⟨node, ⟨earlier, later, hsplit, hnode⟩, (hmoment.listedAt_iff hthere).1 hlisted⟩

/-- **What goes is removed, or is listed at a node that is removed.** -/
theorem goes_iff (hstore : session.store.Integral) :
    InStore session.store entity ∧ ¬ InStore (session.delete vars).1.store entity
      ↔ session.Removes vars entity
        ∨ ∃ r, entity = .relationship r ∧ session.Cascades vars r := by
  constructor
  · rintro ⟨h, hgone⟩
    rw [store_delete, deleteBound] at hgone
    obtain ⟨earlier, ref, later, hsplit, hbefore, hafter⟩ := exists_deletion h hgone
    have hintegral : (earlier.foldl deleteEntity session.store).Integral := by
      obtain ⟨operations, -, heq⟩ :=
        becomes_foldl_deleteEntity (p := fun _ => True) earlier session.store
      rw [heq]
      exact hstore.run operations
    rcases Store.identity_or_listedAt hintegral hbefore hafter with
      rfl | ⟨r, node, rfl, rfl, hnode, hlisted⟩
    · exact .inl ⟨earlier, later, hsplit, hbefore⟩
    · exact .inr ⟨r, rfl, node, earlier, later, hsplit, hnode, hbefore, hlisted⟩
  · rintro (h | ⟨r, rfl, h⟩)
    · exact ⟨h.inStore, h.gone⟩
    · exact h.gone

/-! ## §3. What was found. -/

/-- The last search has bound one of the variables to an entity with the id of
the removed one.  If the database of the search is current again, no id there
had outrun its counter when it was searched, and all that has been done since
is faithful to it, then it is the removed one, and has been in that database at
every moment since. -/
def WasFound (session : Session) (actions : List SessionAction) (vars : List String)
    (removed : Entity) : Prop :=
  ∃ found between, session.LastSearch actions found between
    ∧ ∃ solution ∈ found.lastMatch, ∃ var ∈ vars, ∃ entity,
        solution.find? var = some entity ∧ InStore found.store entity
          ∧ entity.identity = removed.identity
          ∧ ((session.actAll actions).catalog.currentName = found.catalog.currentName →
              found.store.Bounded → found.AllFaithfulTo found.catalog.currentName between →
              entity = removed ∧ ∀ first rest, between = first ++ rest →
                ∃ store, (found.actAll first).catalog.resident? found.catalog.currentName
                    = some store
                  ∧ InStore store removed)

theorem wasFound_of_removes (h : session.AllObtainable) (hnew : session.lastMatch = [])
    {actions : List SessionAction} (hremoved : (session.actAll actions).Removes vars removed) :
    session.WasFound actions vars removed := by
  obtain ⟨solution, hsolution, var, hvar, entity, hfind, hidentity⟩ := hremoved.names
  rcases lastSearch_cases actions session with hnone | ⟨found, between, hlast⟩
  · -- without a search there is nothing to remove
    rw [lastMatch_actAll hnone, hnew] at hsolution
    cases hsolution
  rw [hlast.lastMatch_eq] at hsolution
  have hthere := hremoved.inStore
  rw [hlast.actAll_eq] at hthere
  have hfound : found.AllObtainable ∧ InStore found.store entity := by
    obtain ⟨earlier, pattern, condition, -, -, rfl⟩ := hlast
    have hearlier := h.actAll earlier
    have hintegral := (hearlier _ _ Catalog.resident?_currentName).integral
    exact ⟨hearlier.act _, boundInStore_of_mem_pattern hintegral hsolution var entity hfind⟩
  obtain ⟨hobtainable, hentity⟩ := hfound
  refine ⟨found, between, hlast, solution, hsolution, var, hvar, entity, hfind, hentity, hidentity,
    fun hname hbounded hfaithful => ?_⟩
  rw [hlast.actAll_eq] at hname
  have hissued : found.store.Issued removed.identity := hidentity ▸ hbounded.issued hentity
  have hmoment : ∀ first rest, between = first ++ rest →
      ∃ store, (found.actAll first).catalog.resident? found.catalog.currentName = some store
        ∧ InStore store removed := by
    rintro first rest rfl
    exact inStore_of_precedes hobtainable hfaithful Catalog.resident?_currentName hbounded
      (hname ▸ Catalog.resident?_currentName) hissued hthere
  refine ⟨?_, hmoment⟩
  -- among these moments is that of the search
  obtain ⟨store, hstore, hin⟩ := hmoment [] between rfl
  have hcurrent : found.catalog.resident? found.catalog.currentName = some store := hstore
  rw [Catalog.resident?_currentName] at hcurrent
  obtain rfl := Option.some.inj hcurrent
  exact eq_of_identity hentity hin hidentity

end Session

/-! ## §4. Files that agree with memory. -/

section

variable {opened : Disk} {storage : Storage} {session found : Session}
  {actions between : List SessionAction} {vars : List String} {removed : Entity}

/-- Files and memory agree, and the action is faithful to all databases. -/
structure Kept (opened : Disk) (storage : Storage) (session : Session) (action : SessionAction) :
    Prop where
  durable : Durable opened storage session
  faithful : ∀ name, session.FaithfulTo name action

/-- Where files and memory agree, the same is read again. -/
theorem Durable.kept_reload (h : Durable opened storage session) (name : String) :
    Kept opened storage session (.reload name) := by
  refine ⟨h, fun other _ old read hresident hread => ?_⟩
  obtain ⟨-, loaded, hload, hplain⟩ := h.resident hresident
  rw [h.read_eq] at hread
  have hsound := h.stored hread
  rw [hload] at hread
  obtain rfl := Except.ok.inj hread
  exact ⟨Store.precedes_of_plain_eq hplain, hsound.bounded hsound.idsFit⟩

theorem Durable.each_executed {statements : List GraphStatement} : ∀ {session : Session},
    Durable opened storage session →
    (∀ statement ∈ statements, statement.Carries PropertyMap.ComesBack) →
    session.HasRoomAll statements → saveFailed (session.executeAll statements).2 = false →
    session.Each (Kept opened storage) (session.executed statements) := by
  induction statements with
  | nil => exact fun _ _ _ _ => trivial
  | cons statement rest ih =>
    intro session h hcarries hroom hsaved
    obtain ⟨hfirst, hrest⟩ := List.forall_mem_cons.1 hcarries
    obtain ⟨hroomFirst, hroomRest⟩ := hroom
    have hnext := h.execute hfirst hroomFirst
    unfold Session.executed
    refine ⟨⟨h, fun _ _ => hroomFirst⟩, ?_⟩
    show (session.execute statement).1.Each _ _
    cases hexecute : session.execute statement with
    | mk after result =>
      rw [hexecute] at hnext hroomRest
      cases result with
      | error error => trivial
      | ok outcome =>
        rw [Session.executeAll_of_ok hexecute, saveFailed_map] at hsaved
        exact ih (hnext rfl) hrest hroomRest hsaved

theorem Durable.each_actions (h : Durable opened storage session) {step : SessionStep}
    (hsmooth : session.SmoothStep step) :
    session.Each (Kept opened storage) (session.actions step) := by
  cases step with
  | execute text =>
    have hsaved : saveFailed (session.run text).2 = false := hsmooth.saves
    unfold Session.actions
    unfold Session.run at hsaved
    dsimp only
    split
    next => trivial
    next statements hparse =>
      rw [hparse] at hsaved
      exact h.each_executed (carries_comesBack_of_parse hparse (hsmooth.floats statements hparse))
        (hsmooth.room statements hparse) hsaved
  | select name => exact ⟨⟨h, fun _ => trivial⟩, trivial⟩
  | reload name => exact ⟨h.kept_reload name, trivial⟩

/-- **So it is in every run in which nothing goes wrong outside the program.** -/
theorem Durable.each_history {steps : List SessionStep} : ∀ {session : Session},
    Durable opened storage session → session.Smooth steps →
    session.Each (Kept opened storage) (session.history steps) := by
  induction steps with
  | nil => exact fun _ _ => trivial
  | cons step rest ih =>
    intro session h hsmooth
    unfold Session.history
    rw [Session.each_append_iff, ← Session.step_eq_actAll]
    exact ⟨h.each_actions hsmooth.1, ih (h.step hsmooth.1) hsmooth.2⟩

namespace Session

/-- A search changes neither files nor stores. -/
theorem LastSearch.kept (h : session.LastSearch actions found between)
    (hkept : session.Each (Kept opened storage) actions) :
    Durable opened storage found ∧ ∀ name, found.AllFaithfulTo name between := by
  obtain ⟨earlier, pattern, condition, rfl, -, rfl⟩ := h
  obtain ⟨-, hsearch, hbetween⟩ := each_append_iff.1 hkept
  exact ⟨hsearch.durable.congr rfl rfl,
    fun name => hbetween.mono fun _ _ hkept => hkept.faithful name⟩

/-- **In an empty directory, DELETE removes just what was found** if the
database of the search is current, as long as no save fails, whatever is saved
reads back, and the ids last. -/
theorem removes_found {settings : Settings} {disk : Disk} {catalog : Catalog}
    {steps : List SessionStep}
    (hopen : Catalog.open settings disk = (opened, .ok catalog))
    (hstorage : catalog.storage = some storage)
    (hempty : ∀ base, opened.entry? (storage.directory ++ [base]) = none)
    (hsmooth : (start catalog opened).Smooth steps)
    (hremoved : ((start catalog opened).runSteps steps).1.Removes vars removed) :
    ∃ found between,
      (start catalog opened).LastSearch ((start catalog opened).history steps) found between
        ∧ (((start catalog opened).runSteps steps).1.catalog.currentName
            = found.catalog.currentName →
          InStore found.store removed
            ∧ ∃ solution ∈ found.lastMatch, ∃ var ∈ vars, solution.find? var = some removed) := by
  obtain ⟨-, store, -, -, hload, rfl⟩ := Catalog.open_eq_ok_iff.1 ⟨hopen, hstorage⟩
  rw [runSteps_eq] at hremoved ⊢
  obtain ⟨found, between, hlast, solution, hsolution, var, hvar, entity, hfind, hthere, -, hsame⟩ :=
    wasFound_of_removes (allObtainable_of_open hopen) rfl hremoved
  refine ⟨found, between, hlast, fun hname => ?_⟩
  obtain ⟨hdurable, hfaithful⟩ := hlast.kept ((durable_start hempty hload).each_history hsmooth)
  have hsound := hdurable.current
  obtain ⟨rfl, -⟩ := hsame hname (hsound.bounded hsound.idsFit) (hfaithful _)
  exact ⟨hthere, solution, hsolution, var, hvar, hfind⟩

end Session

end

/-! ## §5. Every history. -/

namespace Session

/-- What a DELETE does after some actions of a session. -/
structure DeletesFound (session : Session) (actions : List SessionAction) (vars : List String) :
    Prop where
  /-- Nothing goes but what is removed, and what goes with a node. -/
  goes_iff : ∀ entity, InStore (session.actAll actions).store entity
      ∧ ¬ InStore ((session.actAll actions).delete vars).1.store entity
    ↔ (session.actAll actions).Removes vars entity
      ∨ ∃ r, entity = .relationship r ∧ (session.actAll actions).Cascades vars r
  touches : (session.actAll actions).store.Coherent → ∀ r,
    (session.actAll actions).Cascades vars r →
      ∃ node, (session.actAll actions).Removes vars (.node node) ∧ r.touches node.id = true
  found : ∀ removed, (session.actAll actions).Removes vars removed →
    session.WasFound actions vars removed

/-- **DELETE removes what was found.**  A session begins on databases that have
been used in any way, and does any number of things; runs of queries and
selections are among them.  Whatever a DELETE removes then, the last search has
found something with its id, and under the conditions of `WasFound` just this;
and nothing else goes, apart from relationships that are listed at a node that
is removed, which with exact indices start or end there. -/
theorem delete_removesFound (disk : Disk) (uses : List CatalogUse) :
    (∀ steps, ((beginning disk uses).runSteps steps).1
        = (beginning disk uses).actAll ((beginning disk uses).history steps))
      ∧ ∀ actions vars, (beginning disk uses).DeletesFound actions vars := by
  have hobtainable := allObtainable_beginning disk uses
  refine ⟨fun steps => runSteps_eq steps _, fun actions vars => ?_⟩
  constructor
  case goes_iff =>
    exact fun entity =>
      goes_iff (hobtainable.actAll actions _ _ Catalog.resident?_currentName).integral
  case touches => exact fun hcoherent r hcascades => hcascades.touches hcoherent
  case found => exact fun removed hremoved => wasFound_of_removes hobtainable rfl hremoved

/-- A node with a relationship is made, and found. -/
def findingActions : List SessionAction :=
  [.execute (.create [[.node ⟨some "a", some "A", ∅⟩, .relationship ⟨none, some "R", ∅⟩,
      .node ⟨some "a", none, ∅⟩]]),
    .execute (.search [[.node ⟨some "x", some "A", ∅⟩]] none)]

/-- Another node is made, the database is read again, and one looks into another
one. -/
def rereadingActions : List SessionAction :=
  [.execute (.create [[.node ⟨none, none, ∅⟩]]), .reload "default", .select "other",
    .select "default"]

theorem beginning_dataSettings : beginning .empty [.open dataSettings]
    = start (.single "default" .empty dataStorage) Storage.dataDisk := by
  unfold beginning runUses use
  dsimp only [start]
  rw [open_dataSettings]
  rfl

/-- The session in which the node has just been found. -/
def findingSession : Session :=
  (beginning .empty [.open dataSettings]).actAll findingActions

/-- The session after the rest. -/
def rereadSession : Session :=
  (beginning .empty [.open dataSettings]).actAll (findingActions ++ rereadingActions)

theorem rereadSession_eq : rereadSession = findingSession.actAll rereadingActions :=
  actAll_append _ _ _

/-- All is in the files when the node is found. -/
theorem durable_findingSession : Durable Storage.dataDisk dataStorage findingSession := by
  have hmaking : Statement.Carries PropertyMap.ComesBack
      (.create [[.node ⟨some "a", some "A", ∅⟩, .relationship ⟨none, some "R", ∅⟩,
        .node ⟨some "a", none, ∅⟩]]) := by
    simp [Statement.Carries, PatternItem.properties, PropertyMap.comesBack_empty]
  have hstart : Durable Storage.dataDisk dataStorage
      (start (.single "default" .empty dataStorage) Storage.dataDisk) :=
    durable_start (fun _ => rfl) rfl
  unfold findingSession
  rw [beginning_dataSettings]
  refine (hstart.execute hmaking ?_ ?_).execute trivial ?_ ?_ <;> decide +kernel

/-- The next node is made and saved. -/
theorem durable_making : findingSession.HasRoom (.create [[.node ⟨none, none, ∅⟩]])
    ∧ Durable Storage.dataDisk dataStorage
      (findingSession.act (.execute (.create [[.node ⟨none, none, ∅⟩]]))) := by
  have hmaking : Statement.Carries PropertyMap.ComesBack
      (.create [[.node ⟨none, none, ∅⟩]]) := by
    simp [Statement.Carries, PatternItem.properties, PropertyMap.comesBack_empty]
  have hroom : findingSession.HasRoom (.create [[.node ⟨none, none, ∅⟩]])
      ∧ saveFailed (findingSession.execute (.create [[.node ⟨none, none, ∅⟩]])).2
        = false := by
    unfold findingSession
    rw [beginning_dataSettings]
    decide +kernel
  exact ⟨hroom.1, durable_findingSession.execute hmaking hroom.1 hroom.2⟩

theorem delete_removesFound_rereadingActions :
    ∃ node r, rereadSession.Removes ["x"] (.node node)
      ∧ rereadSession.Cascades ["x"] r
      ∧ rereadSession.store.Coherent
      ∧ (∃ touched, rereadSession.Removes ["x"] (.node touched) ∧ r.touches touched.id = true)
      ∧ (beginning .empty [.open dataSettings]).WasFound (findingActions ++ rereadingActions)
          ["x"] (.node node)
      ∧ rereadSession.catalog.currentName = "default"
      ∧ findingSession.catalog.currentName = "default"
      ∧ findingSession.store.Bounded
      ∧ findingSession.AllFaithfulTo "default" rereadingActions := by
  have hthen : findingSession.catalog.currentName = "default"
      ∧ findingSession.lastMatch.flatMap (boundEntities ["x"]) = [.node 1] := by
    unfold findingSession
    rw [beginning_dataSettings]
    decide +kernel
  obtain ⟨hname, hstart⟩ : rereadSession.catalog.currentName = "default"
      ∧ (rereadSession.store.relationship? 1).map (·.start) = some 1 := by
    unfold rereadSession
    rw [beginning_dataSettings]
    decide +kernel
  obtain ⟨hroom, hmade⟩ := durable_making
  have hcoherent : rereadSession.store.Coherent :=
    rereadSession_eq ▸ (((hmade.reload _).select _).select _).current.toCoherent
  obtain ⟨r, hr, hstart⟩ := Option.map_eq_some_iff.1 hstart
  obtain ⟨node, hnode⟩ := hcoherent.start_exists hr
  have hrid : r.id = 1 := hcoherent.relationship_id hr
  rw [← hrid] at hr
  have hid : node.id = r.start := hcoherent.node_id hnode
  rw [← hid] at hnode
  have hnames : rereadSession.lastMatch.flatMap (boundEntities ["x"]) = [.node node.id] := by
    rw [rereadSession_eq, lastMatch_actAll (by decide), hthen.2, hid, hstart]
  have hremoved : rereadSession.Removes ["x"] (.node node) := ⟨[], [], hnames, hnode⟩
  have hcascades : rereadSession.Cascades ["x"] r :=
    ⟨node, [], [], hnames, hnode, hr, .inl (hid ▸ hcoherent.byStart_of hr)⟩
  have hfound := (delete_removesFound .empty [.open dataSettings]).2
    (findingActions ++ rereadingActions) ["x"]
  have hsound := durable_findingSession.current
  refine ⟨node, r, hremoved, hcascades, hcoherent, hfound.touches hcoherent r hcascades,
    hfound.found _ hremoved, hname, hthen.1, hsound.bounded hsound.idsFit, ?_⟩
  exact ⟨fun _ => hroom, (hmade.kept_reload "default").faithful _, trivial, trivial, trivial⟩

/-- A node is found; then the step is done, and another node is made that gets
the same id.  That one is removed. -/
def RemovesOther (step : SessionStep) : Prop :=
  ∃ found removed,
    ((start .inMemory .empty).runSteps [.execute "CREATE (a:A) MATCH (n)"]).1.lastMatch.map
        (·.find? "n") = [some (.node found)]
      ∧ ((start .inMemory .empty).runSteps [.execute "CREATE (a:A) MATCH (n)", step,
          .execute "CREATE (x:B)"]).1.Removes ["n"] (.node removed)
      ∧ ((start .inMemory .empty).runSteps [.execute "CREATE (a:A) MATCH (n)", step,
          .execute "CREATE (x:B) DELETE n"]).1.store.nodeCount = 0
      ∧ found.id = removed.id
      ∧ found.labels.toList = ["A"] ∧ removed.labels.toList = ["B"]

/-- **Something else can be removed** in another database, or in the same one
after it has been read again. -/
theorem delete_removesOther : RemovesOther (.select "b") ∧ RemovesOther (.reload "default") := by
  constructor
  all_goals
    refine ⟨⟨1, SortedSet.ofList ["A"], ∅⟩, ⟨1, SortedSet.ofList ["B"], ∅⟩, by rfl,
      ⟨[], [], ?_, ?_⟩, by decide +kernel, rfl, by decide, by decide⟩
    · decide +kernel
    · rfl

/-- A session in memory with one node, whose next node gets the last id. -/
def usedUpSession : Session :=
  (start .inMemory .empty).withStore
    (Store.empty.run [.createNode ["A"] ∅, .reserve 18446744073709551615 1]).2

/-- **So it can where the ids end**, because they begin again then: the third of
the new nodes has the id of the one that was found. -/
theorem removesOther_lastId :
    ∃ found removed,
      (usedUpSession.runSteps [.execute "MATCH (n:A)"]).1.lastMatch.map (·.find? "n")
          = [some (.node found)]
        ∧ (usedUpSession.runSteps [.execute "MATCH (n:A)",
            .execute "DELETE n CREATE (:B) CREATE (:B) CREATE (:B)"]).1.Removes ["n"]
              (.node removed)
        ∧ found.id = removed.id
        ∧ found.labels.toList = ["A"] ∧ removed.labels.toList = ["B"] := by
  refine ⟨⟨1, SortedSet.ofList ["A"], ∅⟩, ⟨1, SortedSet.ofList ["B"], ∅⟩, by rfl,
    ⟨[], [], ?_, ?_⟩, rfl, by decide, by decide⟩
  · decide +kernel
  · rfl

end Session

end PropertyGraph
