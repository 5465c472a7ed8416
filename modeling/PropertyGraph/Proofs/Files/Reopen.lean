/-
  PropertyGraph.Proofs.Files.Reopen
  ─────────────────────────────────
  **A DIRECTORY IS FOUND AGAIN.**

  Making a directory only adds directories to a disk, and saving leaves all of
  them in place.  So a directory that has been made once is there at every
  later moment; making it again succeeds, gives the same path and changes
  nothing (`open_again`).
-/
import PropertyGraph.Proofs.Files.Apart

namespace PropertyGraph

namespace Disk

variable {disk opened later : Disk} {place path result : Path}

/-! ## §1. Directories stay. -/

/-- Every directory of `before` is one of `after`, and relative paths start at
the same place. -/
structure KeepsDirectories (before after : Disk) : Prop where
  workingDirectory : after.workingDirectory = before.workingDirectory
  isDirectory : ∀ {path}, before.isDirectory path = true → after.isDirectory path = true

theorem KeepsDirectories.refl (disk : Disk) : disk.KeepsDirectories disk := ⟨rfl, id⟩

theorem KeepsDirectories.trans {last : Disk} (h : disk.KeepsDirectories later)
    (h' : later.KeepsDirectories last) : disk.KeepsDirectories last :=
  ⟨h'.workingDirectory.trans h.workingDirectory, fun hpath => h'.isDirectory (h.isDirectory hpath)⟩

theorem entry?_eq_of_isDirectory (h : disk.isDirectory path = true) :
    disk.entry? path = some .directory :=
  of_decide_eq_true h

/-- Making a directory where nothing stood. -/
theorem keepsDirectories_put (h : disk.entry? path = none) :
    disk.KeepsDirectories (disk.put path .directory)
      ∧ (disk.put path .directory).isDirectory path = true := by
  have hne : path ≠ [] := by
    rintro rfl
    cases h
  refine ⟨⟨rfl, fun {other} hother => ?_⟩, ?_⟩
  · refine decide_eq_true ?_
    rw [entry?_put _ hne]
    split
    · rfl
    · exact entry?_eq_of_isDirectory hother
  · refine decide_eq_true ?_
    rw [entry?_put _ hne, if_pos rfl]

/-! ## §2. Making directories. -/

theorem keepsDirectories_createDirectories (names : List String) : ∀ (disk : Disk) (place : Path),
    disk.KeepsDirectories (disk.createDirectories place names).1 := by
  induction names with
  | nil => intro disk place; exact .refl disk
  | cons name rest ih =>
    intro disk place
    unfold createDirectories
    dsimp only
    split
    next => exact ih disk _
    next => exact .refl disk
    next hnone =>
      split
      · exact (keepsDirectories_put hnone).1.trans (ih _ _)
      · exact .refl disk

/-- **Directories that were made are found by the same names.** -/
theorem createDirectories_again (names : List String) : ∀ (disk : Disk) (place : Path),
    disk.createDirectories place names = (opened, some result) → opened.KeepsDirectories later →
    later.createDirectories place names = (later, some result) := by
  induction names with
  | nil =>
    intro disk place h _
    obtain ⟨-, hresult⟩ := Prod.mk.inj h
    rw [createDirectories, hresult]
  | cons name rest ih =>
    intro disk place h hkeeps
    -- one way or the other the next directory is there in the end
    have hstep : ∃ first : Disk, first.isDirectory (step place name) = true
        ∧ first.createDirectories (step place name) rest = (opened, some result) := by
      unfold createDirectories at h
      dsimp only at h
      split at h
      next hdirectory => exact ⟨disk, decide_eq_true hdirectory, h⟩
      next => cases h
      next hnone =>
        split at h
        · exact ⟨_, (keepsDirectories_put hnone).2, h⟩
        · cases h
    obtain ⟨first, hdirectory, hrest⟩ := hstep
    have hopened : opened.isDirectory (step place name) = true := by
      have hkept := (keepsDirectories_createDirectories rest first (step place name)).isDirectory
        hdirectory
      rwa [hrest] at hkept
    unfold createDirectories
    dsimp only
    rw [entry?_eq_of_isDirectory (hkeeps.isDirectory hopened)]
    exact ih first _ hrest hkeeps

theorem createDirectory_again {text : String}
    (h : disk.createDirectory text = (opened, some result))
    (hkeeps : opened.KeepsDirectories later) :
    later.createDirectory text = (later, some result) := by
  unfold createDirectory at h ⊢
  split at h
  next names _ =>
    have hopened : opened.workingDirectory = disk.workingDirectory := by
      have hkept :=
        (keepsDirectories_createDirectories names disk (disk.startOf text)).workingDirectory
      rwa [h] at hkept
    have hstart : later.startOf text = disk.startOf text := by
      unfold startOf
      rw [hkeeps.workingDirectory, hopened]
    rw [hstart]
    exact createDirectories_again names disk _ h hkeeps
  next => cases h

end Disk

namespace Storage

variable {storage : Storage} {disk opened later : Disk} {name : String} {store : Store}

theorem keepsDirectories_saved (hcan : CanSave storage disk name) :
    disk.KeepsDirectories (storage.saved disk name store) :=
  ⟨rfl, isDirectory_saved hcan⟩

/-- **A storage is opened again** where it was opened before. -/
theorem open_again {directory : String} {layout : Json.Layout}
    (h : Storage.open disk directory layout = (opened, .ok storage))
    (hkeeps : opened.KeepsDirectories later) :
    Storage.open later directory layout = (later, .ok storage) := by
  unfold Storage.open at h ⊢
  split at h
  next made path hmade =>
    obtain ⟨rfl, hstorage⟩ := Prod.mk.inj h
    rw [Disk.createDirectory_again hmade hkeeps]
    dsimp only
    rw [hstorage]
  next => cases h

end Storage

end PropertyGraph
