/-
  PropertyGraph.Proofs.Files.Confined
  ───────────────────────────────────
  **A SAVE KEEPS TO ITS OWN FILES.**

  A replacement that fails leaves the disk as it was, but for the place of
  the temporary file, which is empty then if a file there can be removed
  (`leftover_of_replaceFile`).  So there are four ways for a save to end, and
  `Ending` says of each what is left at the four paths of the database:

      refused   — nothing was touched
      complete  — two new files, and no temporary ones
      atNodes   — two old files
      atRels    — new nodes beside old relationships

  While the save is going on, there is no moment at which one of the two
  files is neither the old one nor all of the new one, and none at which a
  path of another database is different from before (`save_confined`).

  One thing can be left behind, for nobody hears of it when a temporary file
  cannot be removed.  One that is too far away to be written, because the
  directory was written in too long a way, is too far away to be removed as
  well, and an older one stays (`save_leaves_stale`).
-/
import PropertyGraph.Proofs.Files.Apart
import PropertyGraph.Proofs.Files.Interrupted

namespace PropertyGraph

/-! ## §1. A replacement that fails. -/

namespace Disk

variable {disk before after moment : Disk} {directory path other : Path} {base text : String}

/-- What stands at the place of a temporary file after the replacement of a
file by `text` has failed: nothing, or a directory that was in the way, or
what could not be removed. -/
inductive Leftover (disk after : Disk) (place : Path) (text : String) : Prop where
  | nothing (none : after.entry? place = none)
  | directory (blocked : disk.isDirectory place = true)
      (kept : after.entry? place = disk.entry? place)
  /-- It could not even be created, so that an older file is still there. -/
  | older (stuck : .remove place ∈ disk.faults) (kept : after.entry? place = disk.entry? place)
  | part (stuck : .remove place ∈ disk.faults) {part : String}
      (fault : disk.writeFault? place = some part)
      (written : after.entry? place = some (.file (.text part)))
  /-- The text has arrived, but the file could not be moved. -/
  | whole (stuck : .remove place ∈ disk.faults)
      (written : after.entry? place = some (.file (.text text)))

theorem Leftover.congr (h : Leftover before after path text)
    (hentry : before.entry? path = disk.entry? path) (hfaults : before.faults = disk.faults) :
    Leftover disk after path text := by
  cases h with
  | nothing none => exact .nothing none
  | directory blocked kept =>
    refine .directory ?_ (kept.trans hentry)
    unfold isDirectory at blocked ⊢
    rwa [← hentry]
  | older stuck kept => exact .older (hfaults ▸ stuck) (kept.trans hentry)
  | part stuck fault written =>
    refine .part (hfaults ▸ stuck) ?_ written
    unfold writeFault? at fault ⊢
    rwa [← hfaults]
  | whole stuck written => exact .whole (hfaults ▸ stuck) written

theorem entry?_erase_self (hpath : path ≠ []) : Disk.entry? (disk.erase path) path = none := by
  rw [entry?_of_ne_nil hpath]
  exact (SortedMap.find?_erase_eq _ _ _).trans (if_pos rfl)

/-- A file that could not be created. -/
theorem leftover_removeFile (hpath : path ≠ []) (text : String) :
    Leftover disk (disk.removeFile path) path text := by
  unfold removeFile
  split
  next hfile =>
    split
    next hstuck => exact .older hstuck rfl
    next => exact .nothing (entry?_erase_self hpath)
  next hfile =>
    cases hentry : disk.entry? path with
    | none => exact .nothing hentry
    | some entry =>
      cases entry with
      | file content => exact absurd hentry (hfile content)
      | directory => exact .directory (decide_eq_true hentry) rfl

/-- A file that has been written, in part or as a whole. -/
theorem entry?_removeFile_put (content : FileContent) (hpath : path ≠ []) :
    Disk.entry? ((disk.put path (.file content)).removeFile path) path = none
      ∨ .remove path ∈ disk.faults
        ∧ Disk.entry? ((disk.put path (.file content)).removeFile path) path
            = some (.file content) := by
  rw [removeFile_put content hpath]
  split
  next hstuck => exact .inr ⟨hstuck, (entry?_put _ hpath _).trans (if_pos rfl)⟩
  next => exact .inl (entry?_erase_self hpath)

/-- **What a replacement that fails leaves behind**, at the one place that it
touches. -/
theorem leftover_of_replaceFile
    (h : disk.replaceFile (directory ++ [base]) text = (after, false)) :
    Leftover disk after (directory ++ [base ++ ".tmp"]) text := by
  have htemp : directory ++ [base ++ ".tmp"] ≠ [] := append_singleton_ne_nil directory _
  unfold replaceFile at h
  rw [temporary_append] at h
  cases hcreate : disk.createFile (directory ++ [base ++ ".tmp"]) with
  | none =>
    rw [hcreate] at h
    obtain ⟨rfl, -⟩ := Prod.mk.inj h
    exact leftover_removeFile htemp text
  | some created =>
    -- what was created is removed, however much of the text it holds
    obtain ⟨-, rfl⟩ := createFile_eq_some_iff.1 hcreate
    rw [hcreate] at h
    dsimp only at h
    rw [writeText_put] at h
    cases hfault : disk.writeFault? (directory ++ [base ++ ".tmp"]) with
    | some part =>
      rw [hfault] at h
      obtain ⟨rfl, -⟩ := Prod.mk.inj h
      rcases entry?_removeFile_put (.text part) htemp with hnone | ⟨hstuck, hwritten⟩
      · exact .nothing hnone
      · exact .part hstuck hfault hwritten
    | none =>
      rw [hfault] at h
      dsimp only at h
      split at h
      next =>
        obtain ⟨rfl, -⟩ := Prod.mk.inj h
        rcases entry?_removeFile_put (.text text) htemp with hnone | ⟨hstuck, hwritten⟩
        · exact .nothing hnone
        · exact .whole hstuck hwritten
      next => cases h

/-! ## §2. While a file is replaced. -/

/-- The disks that are there while a file is replaced.  The temporary file
may hold anything while it is written. -/
inductive Replacing (disk : Disk) (path : Path) (text : String) : Disk → Prop where
  | before : Replacing disk path text disk
  | created {created : Disk} (h : disk.createFile (temporary path) = some created) :
      Replacing disk path text created
  | writing {created : Disk} (h : disk.createFile (temporary path) = some created)
      (part : FileContent) : Replacing disk path text (created.put (temporary path) (.file part))
  | after : Replacing disk path text (disk.replaceFile path text).1

/-- Besides the temporary file, a replacement changes one file, and that one
from all of the old text to all of the new text. -/
theorem Replacing.entry? (h : Replacing disk (directory ++ [base]) text moment)
    (hne : other ≠ directory ++ [base ++ ".tmp"]) :
    moment.entry? other = disk.entry? other
      ∨ other = directory ++ [base] ∧ moment.entry? other = some (.file (.text text)) := by
  have htemp : directory ++ [base ++ ".tmp"] ≠ [] := append_singleton_ne_nil directory _
  cases h with
  | before => exact .inl rfl
  | created hcreate =>
    rw [temporary_append] at hcreate
    obtain ⟨-, rfl⟩ := createFile_eq_some_iff.1 hcreate
    exact .inl (by rw [entry?_put _ htemp, if_neg hne])
  | writing hcreate part =>
    rw [temporary_append] at hcreate ⊢
    obtain ⟨-, rfl⟩ := createFile_eq_some_iff.1 hcreate
    exact .inl (by rw [put_put, entry?_put _ htemp, if_neg hne])
  | after =>
    cases hreplace : disk.replaceFile (directory ++ [base]) text with
    | mk after done =>
      cases done with
      | false => exact .inl (entry?_of_replaceFile_eq_false hreplace hne)
      | true =>
        obtain ⟨-, rfl⟩ := replaceFile_eq_true_iff.1 hreplace
        by_cases hother : other = directory ++ [base]
        · exact .inr ⟨hother, by rw [entry?_replaced, if_pos hother]⟩
        · exact .inl (by rw [entry?_replaced, if_neg hother, if_neg hne])

theorem entry?_replaced_file (disk : Disk) (directory : Path) (base text sought : String) :
    Disk.entry? (disk.replaced (directory ++ [base]) text) (directory ++ [sought])
      = if sought = base then some (.file (.text text))
        else if sought = base ++ ".tmp" then none else disk.entry? (directory ++ [sought]) := by
  have hfile : ∀ {left right : String}, directory ++ [left] = directory ++ [right] ↔ left = right :=
    ⟨fun heq => (List.cons.inj (List.append_cancel_left heq)).1, fun heq => heq ▸ rfl⟩
  rw [entry?_replaced]
  simp only [hfile]

end Disk

open Disk

namespace Storage

variable {storage : Storage} {disk after moment : Disk} {name other : String} {store : Store}

/-! ## §3. The files of a database. -/

/-- The nodes file holds all nodes of the store. -/
def HasNodes (storage : Storage) (disk : Disk) (name : String) (store : Store) : Prop :=
  disk.entry? (storage.nodesFile name)
    = some (.file (.text (store.nodesEnvelope.text storage.layout)))

/-- The relationships file holds all relationships of the store. -/
def HasRelationships (storage : Storage) (disk : Disk) (name : String) (store : Store) : Prop :=
  disk.entry? (storage.relationshipsFile name)
    = some (.file (.text (store.relationshipsEnvelope.text storage.layout)))

/-- The two files of a database and their temporary files. -/
def ownFiles (storage : Storage) (name : String) : List Path :=
  [storage.nodesFile name, temporary (storage.nodesFile name), storage.relationshipsFile name,
    temporary (storage.relationshipsFile name)]

/-- A path that has what it had. -/
def Kept (disk after : Disk) (path : Path) : Prop := after.entry? path = disk.entry? path

/-- The place of a temporary file after its replacement has failed.  If it is
too far away to be reached, it is as it was. -/
def CleanedUp (storage : Storage) (disk after : Disk) (file : Path) (text : String) : Prop :=
  if storage.reaches (temporary file) then Leftover disk after (temporary file) text
  else Kept disk after (temporary file)

/-- **How a save ends.** -/
inductive Ending (storage : Storage) (disk : Disk) (name : String) (store : Store) :
    Disk × Except StorageError Unit → Prop where
  /-- The text is no name. -/
  | refused (noName : isDatabaseName name = false) :
      Ending storage disk name store (disk, .error (.invalidName name))
  /-- Both files are in place. -/
  | complete {after : Disk} (can : CanSave storage disk name)
      (nodes : HasNodes storage after name store)
      (noNodesTemporary : after.entry? (temporary (storage.nodesFile name)) = none)
      (rels : HasRelationships storage after name store)
      (noRelsTemporary : after.entry? (temporary (storage.relationshipsFile name)) = none) :
      Ending storage disk name store (after, .ok ())
  /-- The nodes file could not be replaced. -/
  | atNodes {after : Disk} (isName : isDatabaseName name = true)
      (nodes : Kept disk after (storage.nodesFile name))
      (cleaned : CleanedUp storage disk after (storage.nodesFile name)
        (store.nodesEnvelope.text storage.layout))
      (rels : Kept disk after (storage.relationshipsFile name))
      (relsTemporary : Kept disk after (temporary (storage.relationshipsFile name))) :
      Ending storage disk name store (after, .error .disk)
  /-- The nodes file was replaced, the relationships file could not be. -/
  | atRels {after : Disk} (isName : isDatabaseName name = true)
      (nodes : HasNodes storage after name store)
      (noNodesTemporary : after.entry? (temporary (storage.nodesFile name)) = none)
      (rels : Kept disk after (storage.relationshipsFile name))
      (cleaned : CleanedUp storage disk after (storage.relationshipsFile name)
        (store.relationshipsEnvelope.text storage.layout)) :
      Ending storage disk name store (after, .error .disk)

theorem cleanedUp_of_writeFile_eq_false {base text : String}
    (h : storage.writeFile disk (storage.directory ++ [base]) text = (after, false)) :
    CleanedUp storage disk after (storage.directory ++ [base]) text := by
  unfold writeFile at h
  unfold CleanedUp
  rw [temporary_append] at h ⊢
  split at h
  next hreaches =>
    rw [if_pos hreaches]
    exact leftover_of_replaceFile h
  next hreaches =>
    rw [if_neg hreaches, (Prod.mk.inj h).1]
    exact rfl

theorem CleanedUp.congr {before : Disk} {file : Path} {text : String}
    (h : CleanedUp storage before after file text) (hkept : Kept disk before (temporary file))
    (hfaults : before.faults = disk.faults) : CleanedUp storage disk after file text := by
  unfold CleanedUp at h ⊢
  by_cases hreaches : storage.reaches (temporary file) = true
  · rw [if_pos hreaches] at h ⊢
    exact h.congr hkept hfaults
  · rw [if_neg hreaches] at h ⊢
    exact h.trans hkept

theorem Ending.of_nodes_refused (isName : isDatabaseName name = true)
    (h : storage.writeFile disk (storage.nodesFile name)
      (store.nodesEnvelope.text storage.layout) = (after, false)) :
    Ending storage disk name store (after, .error .disk) := by
  obtain ⟨-, -, h₃, h₄⟩ := nodes_ne_rels name
  have hkept : ∀ base, base ≠ name ++ "_nodes.json" ++ ".tmp" →
      Kept disk after (storage.directory ++ [base]) :=
    fun base hne => entry?_of_writeFile_eq_false h (file_ne_file _ hne)
  refine .atNodes isName (hkept _ (append_tmp_ne _).symm) (cleanedUp_of_writeFile_eq_false h)
    (hkept _ h₃.symm) ?_
  rw [relationshipsFile, temporary_append]
  exact hkept _ h₄.symm

theorem Ending.of_rels_refused {between : Disk} (isName : isDatabaseName name = true)
    (hnodes : storage.writeFile disk (storage.nodesFile name)
      (store.nodesEnvelope.text storage.layout) = (between, true))
    (h : storage.writeFile between (storage.relationshipsFile name)
      (store.relationshipsEnvelope.text storage.layout) = (after, false)) :
    Ending storage disk name store (after, .error .disk) := by
  obtain ⟨h₁, h₂, h₃, h₄⟩ := nodes_ne_rels name
  obtain ⟨-, -, rfl⟩ := writeFile_eq_true_iff.1 hnodes
  -- as after the first replacement, but for the second temporary file
  have hkept : ∀ base, base ≠ name ++ "_rels.json" ++ ".tmp" →
      after.entry? (storage.directory ++ [base])
        = if base = name ++ "_nodes.json" then
            some (.file (.text (store.nodesEnvelope.text storage.layout)))
          else if base = name ++ "_nodes.json" ++ ".tmp" then none
          else disk.entry? (storage.directory ++ [base]) := by
    intro base hne
    rw [entry?_of_writeFile_eq_false h (file_ne_file _ hne), entry?_replaced_file]
  refine .atRels isName ?_ ?_ ?_ ?_
  · exact (hkept _ h₂).trans (if_pos rfl)
  · rw [nodesFile, temporary_append, hkept _ h₄, if_neg (append_tmp_ne _), if_pos rfl]
  · unfold Kept relationshipsFile
    rw [hkept _ (append_tmp_ne _).symm, if_neg h₁.symm, if_neg h₃.symm]
  · refine (cleanedUp_of_writeFile_eq_false h).congr ?_ rfl
    unfold Kept
    rw [temporary_append, entry?_replaced_file, if_neg h₂.symm, if_neg h₄.symm]

theorem ending_save (storage : Storage) (disk : Disk) (name : String) (store : Store) :
    Ending storage disk name store (storage.save disk name store) := by
  by_cases hname : isDatabaseName name = true
  · have hvalid : validateName name = .ok () := if_pos hname
    cases hsave : storage.save disk name store with
    | mk after result =>
      cases result with
      | ok =>
        obtain ⟨hcan, rfl⟩ := save_eq_ok_iff.1 hsave
        obtain ⟨hnodes, hnoNodes⟩ := entry?_nodes_saved storage disk name store
        obtain ⟨hrels, hnoRels⟩ := entry?_rels_saved storage disk name store
        exact .complete hcan hnodes (by rwa [nodesFile, temporary_append]) hrels
          (by rwa [relationshipsFile, temporary_append])
      | error error =>
        unfold save at hsave
        rw [hvalid] at hsave
        dsimp only at hsave
        split at hsave
        next hnodes =>
          cases hsave
          exact .of_nodes_refused hname hnodes
        next hnodes =>
          split at hsave
          next hrels =>
            cases hsave
            exact .of_rels_refused hname hnodes hrels
          next => cases hsave
  · have hrefused : storage.save disk name store = (disk, .error (.invalidName name)) := by
      unfold save validateName
      rw [if_neg hname]
    rw [hrefused]
    exact .refused (Bool.eq_false_iff.2 hname)

/-! ## §4. While a database is saved. -/

/-- The disks that are there while a database is saved. -/
inductive Saving (storage : Storage) (disk : Disk) (name : String) (store : Store) :
    Disk → Prop where
  | before : Saving storage disk name store disk
  | nodes {moment : Disk} (isName : isDatabaseName name = true)
      (reaches : storage.reaches (temporary (storage.nodesFile name)) = true)
      (h : Replacing disk (storage.nodesFile name)
        (store.nodesEnvelope.text storage.layout) moment) :
      Saving storage disk name store moment
  | relationships {between moment : Disk} (isName : isDatabaseName name = true)
      (hnodes : storage.writeFile disk (storage.nodesFile name)
        (store.nodesEnvelope.text storage.layout) = (between, true))
      (reaches : storage.reaches (temporary (storage.relationshipsFile name)) = true)
      (h : Replacing between (storage.relationshipsFile name)
        (store.relationshipsEnvelope.text storage.layout) moment) :
      Saving storage disk name store moment
  | after : Saving storage disk name store (storage.save disk name store).1

/-- What can be seen at a moment of a save. -/
structure Whole (storage : Storage) (disk moment : Disk) (name : String) (store : Store) :
    Prop where
  /-- The nodes file is the old one or all of the new one. -/
  nodes : Kept disk moment (storage.nodesFile name) ∨ HasNodes storage moment name store
  /-- So is the relationships file, which is new only beside new nodes. -/
  relationships : Kept disk moment (storage.relationshipsFile name)
    ∨ HasNodes storage moment name store ∧ HasRelationships storage moment name store
  /-- The four paths of the database are all that changes. -/
  elsewhere : ∀ path, path ∉ storage.ownFiles name → Kept disk moment path
  /-- No other database is different when it is loaded. -/
  load : ∀ other, other ≠ name → storage.load moment other = storage.load disk other

theorem mem_ownFiles_iff {path : Path} : path ∈ storage.ownFiles name
    ↔ path = storage.directory ++ [name ++ "_nodes.json"]
      ∨ path = storage.directory ++ [name ++ "_nodes.json" ++ ".tmp"]
      ∨ path = storage.directory ++ [name ++ "_rels.json"]
      ∨ path = storage.directory ++ [name ++ "_rels.json" ++ ".tmp"] := by
  unfold ownFiles nodesFile relationshipsFile
  rw [temporary_append, temporary_append]
  simp only [List.mem_cons, List.not_mem_nil, or_false]

/-- Another database has its own files, and the way to them is the same. -/
theorem load_eq_of_elsewhere
    (h : ∀ path, path ∉ storage.ownFiles name → Kept disk moment path) (hne : other ≠ name) :
    storage.load moment other = storage.load disk other := by
  have hfile : ∀ {suffix}, suffix = "_nodes.json" ∨ suffix = "_rels.json" →
      Kept disk moment (storage.directory ++ [other ++ suffix]) := by
    intro suffix hsuffix
    obtain ⟨h₁, h₂, h₃, h₄⟩ := file_ne_of_ne_name storage hne hsuffix
    refine h _ (fun hmem => ?_)
    rcases mem_ownFiles_iff.1 hmem with heq | heq | heq | heq
    · exact h₁ heq
    · exact h₂ heq
    · exact h₃ heq
    · exact h₄ heq
  refine load_congr (fun place hplace => h place (fun hmem => ?_)) (hfile (.inl rfl))
    (hfile (.inr rfl))
  rcases mem_ownFiles_iff.1 hmem with heq | heq | heq | heq
  all_goals exact file_ne_of_above hplace _ heq

/-- While the nodes file is replaced. -/
theorem Whole.of_nodes (h : Replacing disk (storage.nodesFile name)
    (store.nodesEnvelope.text storage.layout) moment) : Whole storage disk moment name store := by
  obtain ⟨h₁, -, h₃, -⟩ := nodes_ne_rels name
  have helsewhere : ∀ path, path ∉ storage.ownFiles name → Kept disk moment path := by
    intro path hpath
    rw [mem_ownFiles_iff] at hpath
    obtain hkept | ⟨heq, -⟩ := h.entry? (fun heq => hpath (.inr (.inl heq)))
    · exact hkept
    · exact absurd (.inl heq) hpath
  refine ⟨?_, .inl ?_, helsewhere, fun other hne => load_eq_of_elsewhere helsewhere hne⟩
  · obtain hkept | ⟨-, hnew⟩ := h.entry? (file_ne_file _ (append_tmp_ne _).symm)
    · exact .inl hkept
    · exact .inr hnew
  · obtain hkept | ⟨heq, -⟩ := h.entry? (file_ne_file _ h₃.symm)
    · exact hkept
    · exact absurd heq (file_ne_file _ h₁.symm)

/-- While the relationships file is replaced. -/
theorem Whole.of_relationships {between : Disk}
    (hnodes : storage.writeFile disk (storage.nodesFile name)
      (store.nodesEnvelope.text storage.layout) = (between, true))
    (h : Replacing between (storage.relationshipsFile name)
      (store.relationshipsEnvelope.text storage.layout) moment) :
    Whole storage disk moment name store := by
  obtain ⟨h₁, h₂, h₃, -⟩ := nodes_ne_rels name
  obtain ⟨-, -, rfl⟩ := writeFile_eq_true_iff.1 hnodes
  have helsewhere : ∀ path, path ∉ storage.ownFiles name → Kept disk moment path := by
    intro path hpath
    rw [mem_ownFiles_iff] at hpath
    obtain hkept | ⟨heq, -⟩ := h.entry? (fun heq => hpath (.inr (.inr (.inr heq))))
    · refine hkept.trans ((entry?_replaced _ _ _ _ _).trans ?_)
      rw [if_neg (fun heq => hpath (.inl heq)), if_neg (fun heq => hpath (.inr (.inl heq)))]
    · exact absurd (.inr (.inr (.inl heq))) hpath
  -- the new nodes are in place all the time
  have hnew : HasNodes storage moment name store := by
    obtain hkept | ⟨heq, -⟩ := h.entry? (file_ne_file _ h₂)
    · exact hkept.trans ((entry?_replaced_file _ _ _ _ _).trans (if_pos rfl))
    · exact absurd heq (file_ne_file _ h₁)
  refine ⟨.inr hnew, ?_, helsewhere, fun other hne => load_eq_of_elsewhere helsewhere hne⟩
  obtain hkept | ⟨-, hrels⟩ := h.entry? (file_ne_file _ (append_tmp_ne _).symm)
  · refine .inl (hkept.trans ((entry?_replaced_file _ _ _ _ _).trans ?_))
    rw [if_neg h₁.symm, if_neg h₃.symm]
    rfl
  · exact .inr ⟨hnew, hrels⟩

theorem Whole.of_save : Whole storage disk (storage.save disk name store).1 name store := by
  have helsewhere : ∀ path, path ∉ storage.ownFiles name →
      Kept disk (storage.save disk name store).1 path := by
    intro path hpath
    rw [mem_ownFiles_iff] at hpath
    exact entry?_save_of_ne disk store (fun heq => hpath (.inl heq))
      (fun heq => hpath (.inr (.inl heq))) (fun heq => hpath (.inr (.inr (.inl heq))))
      (fun heq => hpath (.inr (.inr (.inr heq))))
  have hending := ending_save storage disk name store
  refine ⟨?_, ?_, helsewhere, fun other hne => load_eq_of_elsewhere helsewhere hne⟩
  · generalize storage.save disk name store = result at hending ⊢
    cases hending with
    | refused => exact .inl rfl
    | complete can nodes => exact .inr nodes
    | atNodes isName nodes => exact .inl nodes
    | atRels isName nodes => exact .inr nodes
  · generalize storage.save disk name store = result at hending ⊢
    cases hending with
    | refused => exact .inl rfl
    | complete can nodes _ rels => exact .inr ⟨nodes, rels⟩
    | atNodes isName nodes cleaned rels => exact .inl rels
    | atRels isName nodes _ rels => exact .inl rels

/-- **A save ends in one of four ways and touches its own files only.**
Whatever the disk is like, what is left at the four paths of the database is
what `Ending` says; and at every moment on the way, each of the two files is
the old one or all of the new one, every other path has what it had, and
every other database loads as before.  A text that is no name changes
nothing at any moment. -/
theorem save_confined (storage : Storage) (disk : Disk) (name : String) (store : Store) :
    Ending storage disk name store (storage.save disk name store)
      ∧ ∀ moment, Saving storage disk name store moment →
          Whole storage disk moment name store
            ∧ (isDatabaseName name = false → moment = disk) := by
  refine ⟨ending_save storage disk name store, fun moment h => ⟨?_, fun hname => ?_⟩⟩
  · cases h with
    | before => exact ⟨.inl rfl, .inl rfl, fun _ _ => rfl, fun _ _ => rfl⟩
    | nodes isName reaches h => exact .of_nodes h
    | relationships isName hnodes reaches h => exact .of_relationships hnodes h
    | after => exact .of_save
  · cases h with
    | before => rfl
    | nodes isName => exact absurd (isName.symm.trans hname) (by decide)
    | relationships isName => exact absurd (isName.symm.trans hname) (by decide)
    | after =>
      unfold save validateName
      rw [hname]
      rfl

/-- A file that can neither be moved nor removed is left behind with the whole
new text. -/
example :
    let disk := { dataDisk with faults :=
      [.rename ["data", "graph_nodes.json"], .remove ["data", "graph_nodes.json.tmp"]] }
    (save ⟨["data"], "data", .compact⟩ disk "graph" .empty).1.text?
        ["data", "graph_nodes.json.tmp"]
      = some (Store.empty.nodesEnvelope.text .compact) := by
  decide +kernel

/-- A directory stands in the way of the second temporary file. -/
def blockedDisk : Disk := dataDisk.put ["data", "graph_rels.json.tmp"] .directory

/-- A part of the nodes has been written there. -/
def halfWritten : Disk :=
  (blockedDisk.put ["data", "graph_nodes.json.tmp"] (.file (.text ""))).put
    ["data", "graph_nodes.json.tmp"] (.file (.text "[1,"))

theorem save_confined_blockedDisk :
    Saving ⟨["data"], "data", .compact⟩ blockedDisk "graph" (Store.empty.run rowRun).2 halfWritten
      ∧ Whole ⟨["data"], "data", .compact⟩ blockedDisk halfWritten "graph"
          (Store.empty.run rowRun).2
      ∧ isDatabaseName "../graph" = false
      ∧ (save ⟨["data"], "data", .compact⟩ blockedDisk "../graph" .empty).1 = blockedDisk := by
  have hsaving : Saving ⟨["data"], "data", .compact⟩ blockedDisk "graph"
      (Store.empty.run rowRun).2 halfWritten :=
    .nodes (by decide) (by decide +kernel) (.writing (createFile_eq_some_iff.2
      ⟨⟨by decide, by decide, by decide, by decide⟩, rfl⟩) (.text "[1,"))
  have hname : isDatabaseName "../graph" = false := by decide
  exact ⟨hsaving, ((save_confined _ _ _ _).2 _ hsaving).1, hname,
    ((save_confined _ _ _ _).2 _ .after).2 hname⟩

/-! ## §5. What is too far away. -/

theorem save_of_not_reaches (isName : isDatabaseName name = true)
    (h : storage.reaches (storage.directory ++ [name ++ "_nodes.json" ++ ".tmp"]) = false) :
    storage.save disk name store = (disk, .error .disk) := by
  have hvalid : validateName name = .ok () := if_pos isName
  have hwrite : ∀ text, storage.writeFile disk (storage.nodesFile name) text = (disk, false) := by
    intro text
    unfold writeFile nodesFile
    rw [temporary_append, h]
    rfl
  unfold save
  rw [hvalid, hwrite]

/-- The directory `data`, written in a long way. -/
def roundabout : Nat → String
  | 0 => "data"
  | n + 1 => roundabout n ++ "/."

theorem utf8ByteSize_roundabout (n : Nat) : (roundabout n).utf8ByteSize = 4 + 2 * n := by
  induction n with
  | zero => rfl
  | succ n ih =>
    have hsize : "/.".utf8ByteSize = 2 := rfl
    rw [roundabout, String.utf8ByteSize_append, ih, hsize]
    omega

/-- A storage there. -/
def farStorage : Storage := ⟨["data"], roundabout 2000, .compact⟩

/-- A name of a hundred letters. -/
def longName : String := .ofList (List.replicate 100 'n')

/-- A temporary file has been left there, by whomever. -/
def staleDisk : Disk :=
  dataDisk.put (temporary (farStorage.nodesFile longName)) (.file (.text "stale"))

/-- **A temporary file can be left behind.**  The way to it is too long to
write there and too long to remove it. -/
theorem save_leaves_stale :
    isDatabaseName longName = true
      ∧ farStorage.save staleDisk longName .empty = (staleDisk, .error .disk)
      ∧ staleDisk.isDirectory (temporary (farStorage.nodesFile longName)) = false
      ∧ staleDisk.entry? (temporary (farStorage.nodesFile longName))
          = some (.file (.text "stale")) := by
  have hname : isDatabaseName longName = true := by decide +kernel
  have htemp : temporary (farStorage.nodesFile longName) ≠ [] := by
    rw [nodesFile, temporary_append]
    exact append_singleton_ne_nil _ _
  have hentry : staleDisk.entry? (temporary (farStorage.nodesFile longName))
      = some (.file (.text "stale")) :=
    (entry?_put _ htemp _).trans (if_pos rfl)
  have hfar : farStorage.reaches
      (farStorage.directory ++ [longName ++ "_nodes.json" ++ ".tmp"]) = false := by
    have hwritten : farStorage.written.utf8ByteSize = 4004 := utf8ByteSize_roundabout 2000
    have hbase : (longName ++ "_nodes.json" ++ ".tmp").utf8ByteSize = 115 := by decide +kernel
    unfold reaches isShortPath writtenFile pathLimit
    rw [List.getLast?_concat, Option.getD_some, decide_eq_false_iff_not,
      String.utf8ByteSize_append, String.utf8ByteSize_append, hwritten, hbase]
    omega
  refine ⟨hname, save_of_not_reaches hname hfar, ?_, hentry⟩
  unfold Disk.isDirectory
  rw [hentry]
  rfl

end Storage

end PropertyGraph
