/-
  PropertyGraph.Proofs.Session.Reopened
  ─────────────────────────────────────
  **CLOSING AND OPENING AGAIN.**

  A persistent session that starts in an empty directory keeps every resident
  database in its files, as long as nothing outside the program goes wrong.  So
  it can be closed at any point: a session that is opened there on the same
  files, on whichever of the databases, and in which the current one is selected
  again, is a twin of the session that went on but for the solutions of the
  last MATCH, which are not in any file (`run_durable`).

  Nothing is asked of what happens after that.
-/
import PropertyGraph.Proofs.Session.Durable
import PropertyGraph.Proofs.Session.Twin

namespace PropertyGraph

open PropertyGraph.Query

section

variable {opened : Disk} {storage : Storage} {session : Session}

/-! ## §1. The last search. -/

/-- A text that starts with MATCH makes all answers from there on independent of
the search before. -/
theorem Session.runSteps_recalling {text : String} {pattern : GraphPattern}
    {condition : Option (Condition Value)} {statements : List GraphStatement}
    (hparse : parse text = .ok (.search pattern condition :: statements))
    (solutions : List Bindings) (later : List SessionStep) :
    (session.recalling solutions).runSteps (.execute text :: later)
      = session.runSteps (.execute text :: later) := by
  have hrun : (session.recalling solutions).run text = session.run text := by
    unfold run
    rw [hparse]
    rfl
  unfold runSteps step
  dsimp only
  rw [hrun]

/-! ## §2. The files of a session. -/

/-- A selection takes what the files hold. -/
theorem Durable.selected (h : Durable opened storage session) (name : String) :
    TwinChoice (session.catalog.selected session.disk name)
      (storage.load session.disk name) := by
  unfold Catalog.selected
  split
  next store hresident =>
    obtain ⟨hsound, loaded, hload, hplain⟩ := h.resident hresident
    rw [hload]
    exact hsound.toCoherent.twin (h.stored hload).toCoherent hplain.symm
  next =>
    rw [h.read_eq]
    exact .refl _

/-- The databases that are loaded hold the same as those in memory. -/
theorem Durable.sameAs (h : Durable opened storage session) {name : String} {store : Store}
    (hresident : session.catalog.resident? name = some store) :
    ∃ loaded, storage.load session.disk name = .ok loaded ∧ loaded.SameAs store := by
  obtain ⟨hsound, loaded, hload, hplain⟩ := h.resident hresident
  exact ⟨loaded, hload, (h.stored hload).toCoherent.sameAs hsound.toCoherent hplain⟩

/-! ## §3. Another session on them. -/

/-- **The same directory is opened again**, with any database first. -/
theorem Durable.open_again (h : Durable opened storage session) {settings : Settings} {disk : Disk}
    {path : String} {store : Store} (hpath : settings.dataPath = some path)
    (hopen : Storage.open disk path settings.layout = (opened, .ok storage))
    (hload : storage.load session.disk settings.defaultDatabase = .ok store) :
    Catalog.open settings session.disk
      = (session.disk, .ok (.single settings.defaultDatabase store storage)) :=
  (Catalog.open_eq_ok_iff.2
    ⟨path, store, hpath, Storage.open_again hopen h.directories, hload, rfl⟩).1

/-- **A session on the same files with the same current database** is a twin of
the session without its last search. -/
theorem Durable.twin_of_single (h : Durable opened storage session) {name : String} {store : Store}
    (hload : storage.load session.disk name = .ok store) :
    ∃ selected : Session,
      (Session.start (Catalog.single name store storage) session.disk).select
          session.catalog.currentName = (selected, .ok ())
        ∧ (session.recalling []).Twin selected := by
  have hfresh := Catalog.selected_single hload
  obtain ⟨-, loaded, hcurrent, -⟩ := h.resident Catalog.resident?_currentName
  obtain ⟨after, hafter, htakes⟩ := Catalog.takes_of_select
    (Storage.validateName_of_load hcurrent) ((hfresh _).trans hcurrent)
  refine ⟨⟨after, session.disk, []⟩, ?_, ?_⟩
  · unfold Session.select Session.start
    dsimp only
    rw [hafter]
  · exact
      { disk := rfl
        lastMatch := rfl
        storage := h.storage_eq.trans htakes.storage.symm
        currentName := htakes.currentName.symm
        selected := fun other => by
          have hother : after.selected session.disk other = storage.load session.disk other := by
            rw [htakes.selected, hfresh]
            split
            next heq => rw [heq, hcurrent]
            next => rfl
          show TwinChoice _ (after.selected session.disk other)
          rw [hother]
          exact h.selected other }

end

namespace Session

/-! ## §4. Whole runs. -/

/-- **What a session has in memory is in its files, and closing it loses the
last search only.**  A session starts in an empty directory and is used in any
way, but no save fails.  Then every resident database can be loaded, with the
same entities, counters and look-ups.  Opening the same directory again, on any
of the databases, changes no file, the current database can be selected, and
from there on all answers are those of the session without its last search. So
an answer that does not depend on that search is the one the session would have
given. -/
theorem run_durable {settings : Settings} {disk opened : Disk} {catalog : Catalog}
    {storage : Storage} {steps : List SessionStep}
    (hopen : Catalog.open settings disk = (opened, .ok catalog))
    (hstorage : catalog.storage = some storage)
    (hempty : ∀ base, opened.entry? (storage.directory ++ [base]) = none)
    (hsmooth : (start catalog opened).Smooth steps) :
    let session := ((start catalog opened).runSteps steps).1
    (∀ name store, session.catalog.resident? name = some store →
        ∃ loaded, storage.load session.disk name = .ok loaded ∧ loaded.SameAs store)
      ∧ ∀ name, name = settings.defaultDatabase ∨ name ∈ session.catalog.names →
          ∃ reopened selected,
            Catalog.open { settings with defaultDatabase := name } session.disk
                = (session.disk, .ok reopened)
              ∧ (start reopened session.disk).select session.catalog.currentName
                = (selected, .ok ())
              ∧ ∀ later,
                  (selected.runSteps later).2 = ((session.recalling []).runSteps later).2
                    ∧ ∀ k : Nat,
                        (∀ solutions, ((session.recalling solutions).runSteps later).2[k]?
                          = (session.runSteps later).2[k]?) →
                        (selected.runSteps later).2[k]? = (session.runSteps later).2[k]? := by
  intro session
  obtain ⟨path, store, hpath, hdirectory, hload, rfl⟩ :=
    Catalog.open_eq_ok_iff.1 ⟨hopen, hstorage⟩
  have h : Durable opened storage session := (durable_start hempty hload).runSteps hsmooth
  refine ⟨fun name store => h.sameAs, fun name hname => ?_⟩
  have hloadable : ∃ loaded, storage.load session.disk name = .ok loaded := by
    rcases hname with rfl | hname
    · exact h.loadable hload
    · obtain ⟨_, hresident⟩ := Catalog.mem_names_iff.1 hname
      obtain ⟨loaded, hloaded, -⟩ := h.sameAs hresident
      exact ⟨loaded, hloaded⟩
  obtain ⟨loaded, hloaded⟩ := hloadable
  obtain ⟨selected, hselect, htwin⟩ := h.twin_of_single hloaded
  have hreopen : Catalog.open { settings with defaultDatabase := name } session.disk
      = (session.disk, .ok (.single name loaded storage)) :=
    h.open_again hpath hdirectory hloaded
  refine ⟨_, selected, hreopen, hselect, fun later => ?_⟩
  have hanswers : ((session.recalling []).runSteps later).2 = (selected.runSteps later).2 :=
    htwin.runSteps.1
  refine ⟨hanswers.symm, fun k hindependent => ?_⟩
  rw [← hanswers]
  exact hindependent []

/-- Databases below `data`. -/
def dataSettings : Settings := ⟨some "data", "default", true⟩

/-- Their place on a disk with nothing else. -/
def dataStorage : Storage := ⟨["data"], "data", .indented⟩

/-- A float is brought in, another database is used and read again, two texts
fail, one of them halfway, one selection fails, and what the other database was
searched for is deleted, so that the node with the float is left. -/
def visitingSteps : List SessionStep :=
  [.execute "CREATE (a:A \x7bh: \"x\"\x7d)-[:R]->(b:B \x7bh: 0.5\x7d) MATCH (a:A) RETURN a",
    .select "other", .execute "CREATE (c) CREATE (", .execute "CREATE (c:C) MATCH (c)",
    .reload "other", .execute "CREATE (d:D) CREATE ()-[:R]->() CREATE (e)-[r]->(f)",
    .select "no/name", .select "default", .execute "DELETE c"]

theorem open_dataSettings : Catalog.open dataSettings .empty
    = (Storage.dataDisk, .ok (.single "default" .empty dataStorage)) := by
  have hsplit : "data".splitOn "/" = ["data"] := by
    unfold String.splitOn
    rw [if_neg (by decide), String.splitOnAux, String.splitOnAux, String.splitOnAux,
      String.splitOnAux, String.splitOnAux]
    decide
  have hnames : Disk.namesOf? "data" = some ["data"] := by
    unfold Disk.namesOf?
    rw [hsplit]
    rfl
  have hopen : Storage.open .empty "data" .indented = (Storage.dataDisk, .ok dataStorage) := by
    unfold Storage.open Disk.createDirectory
    rw [hnames]
    rfl
  exact (Catalog.open_eq_ok_iff.2 ⟨"data", .empty, rfl, hopen, by rfl, rfl⟩).1

theorem run_durable_visitingSteps :
    ∃ session : Session,
      ((start (.single "default" .empty dataStorage) Storage.dataDisk).runSteps visitingSteps).1
          = session
        ∧ session.catalog.names = ["default", "other"]
        ∧ session.store.allNodes.map (·.id) = [2]
        ∧ (∀ name store, session.catalog.resident? name = some store →
            ∃ loaded, dataStorage.load session.disk name = .ok loaded ∧ loaded.SameAs store)
        ∧ ∃ reopened selected,
            Catalog.open { dataSettings with defaultDatabase := "other" } session.disk
                = (session.disk, .ok reopened)
              ∧ (start reopened session.disk).select "default" = (selected, .ok ())
              ∧ (selected.runSteps [.execute "MATCH (n) RETURN n"]).2[0]?
                = (session.runSteps [.execute "MATCH (n) RETURN n"]).2[0]? := by
  have hempty : ∀ base, Storage.dataDisk.entry? (["data"] ++ [base]) = none := fun _ => rfl
  have hsmooth :
      (start (.single "default" .empty dataStorage) Storage.dataDisk).Smooth visitingSteps := by
    decide +kernel
  obtain ⟨hfiles, hreopen⟩ := run_durable open_dataSettings rfl hempty hsmooth
  obtain ⟨hnames, hcurrent, hnodes⟩ :
      ((start (.single "default" .empty dataStorage) Storage.dataDisk).runSteps
          visitingSteps).1.catalog.names = ["default", "other"]
        ∧ ((start (.single "default" .empty dataStorage) Storage.dataDisk).runSteps
          visitingSteps).1.catalog.currentName = "default"
        ∧ ((start (.single "default" .empty dataStorage) Storage.dataDisk).runSteps
          visitingSteps).1.store.allNodes.map (·.id) = [2] := by decide +kernel
  obtain ⟨reopened, selected, hopen, hselect, hlater⟩ := hreopen "other" (.inr (hnames ▸ by decide))
  rw [hcurrent] at hselect
  refine ⟨_, rfl, hnames, hnodes, hfiles, reopened, selected, hopen, hselect, ?_⟩
  refine (hlater _).2 0 (fun solutions => ?_)
  have hparse : parse "MATCH (n) RETURN n"
      = .ok [.search [[.node ⟨some "n", none, ∅⟩]] none, .project ["n"] false] := by rfl
  rw [runSteps_recalling hparse]

end Session

end PropertyGraph
