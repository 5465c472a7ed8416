/-
  PropertyGraph.Proofs.Session.Delete
  ───────────────────────────────────
  **DELETE REMOVES EXACTLY WHAT IT NAMES.**

  DELETE follows the solutions of the last search through the variables it is
  given.  An entity is NAMED if some solution binds one of the variables to
  it; the solutions may name it many times, or name entities that have long
  been deleted or are of another database.

  What is left depends on the set of named entities alone
  (`delete_removesNamed`): not on the order of solutions or variables, and
  not on what has been deleted already.
-/
import PropertyGraph.Proofs.Session.Removal
import PropertyGraph.Proofs.Session.Twin

namespace PropertyGraph

namespace Session

/-! ## §1. Named entities. -/

/-- Some solution binds one of the variables to the entity. -/
def Names (solutions : List Bindings) (vars : List String) (ref : EntityRef) : Prop :=
  ∃ bindings ∈ solutions, ∃ var ∈ vars, ∃ entity,
    bindings.find? var = some entity ∧ entity.identity = ref

variable {solutions others : List Bindings} {vars otherVars : List String} {ref : EntityRef}

theorem mem_boundEntities_iff :
    ref ∈ solutions.flatMap (boundEntities vars) ↔ Names solutions vars ref := by
  unfold boundEntities Names
  simp only [List.mem_flatMap, List.mem_filterMap, Option.map_eq_some_iff]

instance : DecidablePred (Names solutions vars) :=
  fun _ => decidable_of_iff _ mem_boundEntities_iff

/-- Order and repetitions do not count. -/
theorem names_congr (hsolutions : ∀ bindings, bindings ∈ others ↔ bindings ∈ solutions)
    (hvars : ∀ var, var ∈ otherVars ↔ var ∈ vars) (ref : EntityRef) :
    Names others otherVars ref ↔ Names solutions vars ref := by
  unfold Names
  simp only [hsolutions, hvars]

theorem without_deleteBound {store : Store} (h : Store.Coherent store)
    (solutions : List Bindings) (vars : List String) :
    store.Without (deleteBound store solutions vars) (Names solutions vars) :=
  (h.without_foldl_deleteEntity _).congr (fun _ => mem_boundEntities_iff.symm)

/-! ## §2. Saving afterwards. -/

variable {session : Session}

@[simp] theorem lastMatch_saved (session : Session) (outcome : Outcome) :
    (session.saved outcome).1.lastMatch = session.lastMatch := by
  rw [saved_eq]

/-- What is saved does not depend on the last search, and of two stores with
the same answers the same is saved. -/
theorem saved_congr (session : Session) {left right : Store} (h : left.SameAs right)
    (solutions : List Bindings) (outcome : Outcome) :
    (((session.recalling solutions).withStore left).saved outcome).2
        = ((session.withStore right).saved outcome).2
      ∧ (((session.recalling solutions).withStore left).saved outcome).1.disk
        = ((session.withStore right).saved outcome).1.disk := by
  have hsave : ((session.recalling solutions).withStore left).catalog.save
      ((session.recalling solutions).withStore left).disk
        = (session.withStore right).catalog.save (session.withStore right).disk := by
    unfold Catalog.save withStore recalling
    dsimp only
    cases session.catalog.storage with
    | none => rfl
    | some storage => exact Storage.save_congr h storage _ _
  rw [saved_eq, saved_eq]
  dsimp only
  constructor
  · rw [hsave]
  · exact congrArg Prod.fst hsave

/-- Saving again after a save that has succeeded changes nothing. -/
theorem saved_again {outcome first again : Outcome}
    (h : (session.saved outcome).2 = .ok first) :
    (session.saved outcome).1.saved again = ((session.saved outcome).1, .ok again) := by
  cases hsave : session.catalog.save session.disk with
  | mk disk result =>
    rw [saved_eq, hsave] at h
    cases result with
    | error error => cases h
    | ok =>
      -- what is written is what the files hold already
      have hagain : session.catalog.save disk = (disk, .ok ()) := by
        unfold Catalog.save at hsave ⊢
        cases hstorage : session.catalog.storage with
        | none => rfl
        | some storage =>
          rw [hstorage] at hsave
          exact Storage.save_again hsave
      rw [saved_eq session, hsave, saved_eq, hagain]

/-! ## §3. DELETE. -/

/-- The numbers of entities that go, each counted once. -/
def deletedSummary (store : Store) (solutions : List Bindings) (vars : List String) : Summary :=
  ⟨(store.allNodes.filter (fun node => Names solutions vars (.node node.id))).length,
    (store.allRelationships.filter (fun r => r.GoesWith (Names solutions vars))).length⟩

theorem delete_eq (h : Store.Coherent session.store) (vars : List String) :
    session.delete vars
      = (session.withStore (deleteBound session.store session.lastMatch vars)).saved
          (.deleted (deletedSummary session.store session.lastMatch vars)) := by
  obtain ⟨hnodes, hrelationships⟩ := (without_deleteBound h session.lastMatch vars).counts
  unfold delete
  dsimp only
  rw [hnodes, hrelationships]
  rfl

theorem store_delete (session : Session) (vars : List String) :
    (session.delete vars).1.store = deleteBound session.store session.lastMatch vars := by
  rw [delete, store_saved, store_withStore]

theorem lastMatch_delete (session : Session) (vars : List String) :
    (session.delete vars).1.lastMatch = session.lastMatch := by
  rw [delete, lastMatch_saved]
  rfl

/-- **Solutions and variables in another order**, or with repetitions. -/
theorem delete_congr (h : Store.Coherent session.store)
    (hnames : ∀ ref, Names others otherVars ref ↔ Names session.lastMatch vars ref) :
    ((session.recalling others).delete otherVars).2 = (session.delete vars).2
      ∧ ((session.recalling others).delete otherVars).1.disk
        = (session.delete vars).1.disk
      ∧ ((session.recalling others).delete otherVars).1.store.SameAs
          (session.delete vars).1.store := by
  have hothers : session.store.Without (deleteBound session.store others otherVars)
      (Names session.lastMatch vars) :=
    (without_deleteBound h others otherVars).congr (fun ref => (hnames ref).symm)
  have hsame := hothers.sameAs (without_deleteBound h session.lastMatch vars)
  have hcurrent : (session.recalling others).store = session.store := rfl
  have hothersMatch : (session.recalling others).lastMatch = others := rfl
  -- as much is left, so as much has gone
  rw [Session.delete, Session.delete, store_saved, store_saved, store_withStore, store_withStore,
    hcurrent, hothersMatch, hsame.nodeCount, hsame.relationshipCount]
  obtain ⟨hanswer, hdisk⟩ := saved_congr session hsame others _
  exact ⟨hanswer, hdisk, hsame⟩

/-- **The same once more**: nothing is left to delete. -/
theorem delete_again (h : Store.Coherent session.store) (vars : List String) :
    (session.delete vars).1.delete vars
      = (session.delete vars).1.saved (.deleted ⟨0, 0⟩) := by
  have hleft := without_deleteBound h session.lastMatch vars
  have hsame : deleteBound (session.delete vars).1.store (session.delete vars).1.lastMatch vars
      = (session.delete vars).1.store := by
    rw [store_delete, lastMatch_delete]
    exact hleft.foldl_deleteEntity_again h.toIntegral (fun ref => mem_boundEntities_iff.1)
  have hkept : (session.delete vars).1.withStore (session.delete vars).1.store
      = (session.delete vars).1 := rfl
  rw [Session.delete, hsame, Nat.sub_self, Nat.sub_self, hkept]

/-- **DELETE removes exactly what it names.**  Left are the other nodes, and
the relationships that neither are named nor touch a named node; they are as
they were, as are the counters and the last search, and every index lists
exactly what it should.  Each entity that goes is counted once.  The order of
solutions and variables, and how often they are repeated, makes no difference,
and the same DELETE again finds nothing to do. -/
theorem delete_removesNamed (session : Session) (hstore : session.store.Reachable)
    (vars : List String) :
    ∃ after, session.store.Without after (Names session.lastMatch vars)
      ∧ after.LooksLike after.plain
      ∧ session.delete vars = (session.withStore after).saved
          (.deleted (deletedSummary session.store session.lastMatch vars))
      ∧ (session.delete vars).1.store = after
      ∧ (session.delete vars).1.lastMatch = session.lastMatch
      ∧ (∀ solutions otherVars,
          (∀ bindings, bindings ∈ solutions ↔ bindings ∈ session.lastMatch) →
          (∀ var, var ∈ otherVars ↔ var ∈ vars) →
          ∀ other, other = (session.recalling solutions).delete otherVars →
            other.2 = (session.delete vars).2 ∧ other.1.disk = (session.delete vars).1.disk
              ∧ other.1.store.SameAs after)
      ∧ (session.delete vars).1.delete vars
          = (session.delete vars).1.saved (.deleted ⟨0, 0⟩)
      ∧ ∀ outcome, (session.delete vars).2 = .ok outcome →
          (session.delete vars).1.delete vars
            = ((session.delete vars).1, .ok (.deleted ⟨0, 0⟩)) := by
  have hcoherent := hstore.coherent
  have hleft := without_deleteBound hcoherent session.lastMatch vars
  refine ⟨_, hleft, hleft.coherent.looksLike_plain, delete_eq hcoherent vars,
    store_delete session vars, lastMatch_delete session vars, ?_, delete_again hcoherent vars, ?_⟩
  · rintro solutions otherVars hsolutions hvars other rfl
    rw [← store_delete session vars]
    exact delete_congr hcoherent (names_congr hsolutions hvars)
  · intro outcome houtcome
    rw [delete_again hcoherent vars]
    rw [delete_eq hcoherent vars] at houtcome ⊢
    exact saved_again houtcome

/-- `(h:Hub)-[:E]->(a)`, `(h)-[:E]->(b)`, `(b)-[:F]->(a)`; a fourth node is gone. -/
def hubRun : List StoreOperation :=
  [.createNode ["Hub"] ∅, .createNode [] ∅, .createNode [] ∅, .createNode [] ∅,
    .createRelationship "E" 1 2 ∅, .createRelationship "E" 1 3 ∅, .createRelationship "F" 3 2 ∅,
    .deleteNode 4]

/-- The hub with either of its relationships, and entities that are not there:
a node that is gone, a relationship that never was. -/
def hubSolutions : List Bindings :=
  [(∅ : Bindings).bind "h" (.node ⟨1, .ofList ["Hub"], ∅⟩)
      |>.bind "r" (.relationship ⟨1, "E", 1, 2, ∅⟩),
    (∅ : Bindings).bind "h" (.node ⟨1, .ofList ["Hub"], ∅⟩)
      |>.bind "r" (.relationship ⟨2, "E", 1, 3, ∅⟩),
    (∅ : Bindings).bind "h" (.node ⟨4, ∅, ∅⟩) |>.bind "r" (.relationship ⟨9, "E", 4, 4, ∅⟩)]

/-- A session in memory after a search with these solutions. -/
def hubSession : Session :=
  ⟨{ Catalog.inMemory with current := (Store.empty.run hubRun).2 }, .empty, hubSolutions⟩

/-- Deleting `h, r` takes the hub with both of its relationships, and deleting
`r, h, r` along the solutions backwards takes the same. -/
theorem delete_removesNamed_hubSession :
    hubSession.store.Reachable
      ∧ ∃ after, hubSession.delete ["h", "r"]
            = (hubSession.withStore after, .ok (.deleted ⟨1, 2⟩))
          ∧ after.allNodes = [⟨2, ∅, ∅⟩, ⟨3, ∅, ∅⟩]
          ∧ after.allRelationships = [⟨3, "F", 3, 2, ∅⟩]
          ∧ ∃ other, (hubSession.recalling hubSolutions.reverse).delete ["r", "h", "r"]
              = (other, .ok (.deleted ⟨1, 2⟩)) ∧ other.store.SameAs after := by
  have hreach : hubSession.store.Reachable :=
    ⟨hubRun, by decide +kernel, rfl⟩
  obtain ⟨after, hleft, -, hdelete, -, -, hother, -, -⟩ :=
    delete_removesNamed hubSession hreach ["h", "r"]
  have hsummary : deletedSummary hubSession.store hubSession.lastMatch ["h", "r"] = ⟨1, 2⟩ := by
    decide +kernel
  have hanswer : hubSession.delete ["h", "r"]
      = (hubSession.withStore after, .ok (.deleted ⟨1, 2⟩)) := by
    rw [hdelete, hsummary]
    rfl
  have hvars : ∀ var, var ∈ ["r", "h", "r"] ↔ var ∈ ["h", "r"] := by
    intro var
    simp only [List.mem_cons, List.not_mem_nil, or_false]
    grind
  obtain ⟨hsame, -, hstore⟩ := hother hubSolutions.reverse ["r", "h", "r"]
    (fun _ => List.mem_reverse) hvars _ rfl
  rw [hanswer] at hsame
  exact ⟨hreach, after, hanswer, hleft.allNodes, hleft.allRelationships, _,
    Prod.ext rfl hsame, hstore⟩

end Session

end PropertyGraph
