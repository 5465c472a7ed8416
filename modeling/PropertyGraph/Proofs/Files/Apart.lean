/-
  PropertyGraph.Proofs.Files.Apart
  ────────────────────────────────
  **DATABASES ARE KEPT APART.**

  Names of databases may be parts of one another, but no file of one database
  is a file of another, or the temporary file of one: the endings tell.  So
  saving a database leaves what is loaded under any other name as it is
  (`load_save_of_ne`), and leaves every directory in place.
-/
import PropertyGraph.Proofs.Files.Layout
import PropertyGraph.Proofs.Files.SaveLoad

namespace PropertyGraph

open Disk

/-! ## §1. Endings. -/

/-- The last nine characters, from the end. -/
def ending (s : String) : List Char := s.toList.reverse.take 9

theorem ending_append (name : String) {suffix : String} (h : 9 ≤ suffix.length) :
    ending (name ++ suffix) = ending suffix := by
  unfold ending
  rw [String.toList_append, List.reverse_append, List.take_append_of_le_length]
  rw [List.length_reverse, String.length_toList]
  exact h

/-- Different endings make different texts, whatever stands before them. -/
theorem append_ne_of_ending {left right : String} (hleft : 9 ≤ left.length)
    (hright : 9 ≤ right.length) (h : ending left ≠ ending right) (name other : String) :
    name ++ left ≠ other ++ right := by
  intro heq
  apply h
  rw [← ending_append name hleft, ← ending_append other hright, heq]

theorem append_ne_of_ne {name other : String} (h : name ≠ other) (suffix : String) :
    name ++ suffix ≠ other ++ suffix := by
  intro heq
  apply h
  have hlists := congrArg String.toList heq
  rw [String.toList_append, String.toList_append] at hlists
  exact String.toList_inj.1 (List.append_cancel_right hlists)

/-! ## §2. Files of different databases. -/

namespace Storage

variable {storage : Storage} {disk : Disk} {name other : String}

theorem entry?_writeFile (storage : Storage) (disk : Disk) (text : String) {base : String}
    {path : Path} (hfile : path ≠ storage.directory ++ [base])
    (htmp : path ≠ storage.directory ++ [base ++ ".tmp"]) :
    Disk.entry? (storage.writeFile disk (storage.directory ++ [base]) text).1 path
      = disk.entry? path := by
  cases h : storage.writeFile disk (storage.directory ++ [base]) text with
  | mk after done =>
    cases done with
    | false => exact entry?_of_writeFile_eq_false h htmp
    | true =>
      obtain ⟨-, -, rfl⟩ := writeFile_eq_true_iff.1 h
      exact (entry?_replaced _ _ _ _ _).trans (by rw [if_neg hfile, if_neg htmp])

/-- What a save does not touch, whether it succeeds or not. -/
theorem entry?_save_of_ne (disk : Disk) (store : Store) {path : Path}
    (h₁ : path ≠ storage.directory ++ [name ++ "_nodes.json"])
    (h₂ : path ≠ storage.directory ++ [name ++ "_nodes.json" ++ ".tmp"])
    (h₃ : path ≠ storage.directory ++ [name ++ "_rels.json"])
    (h₄ : path ≠ storage.directory ++ [name ++ "_rels.json" ++ ".tmp"]) :
    Disk.entry? (storage.save disk name store).1 path = disk.entry? path := by
  have hnodes := storage.entry?_writeFile disk (store.nodesEnvelope.text storage.layout) h₁ h₂
  have hrels := fun between =>
    storage.entry?_writeFile between (store.relationshipsEnvelope.text storage.layout) h₃ h₄
  unfold save nodesFile relationshipsFile
  split
  next => rfl
  next =>
    split
    next h => rwa [h] at hnodes
    next between h =>
      rw [h] at hnodes
      split
      next h' => exact (h' ▸ hrels between).trans hnodes
      next h' => exact (h' ▸ hrels between).trans hnodes

/-- A file of another database is none of the four of this one. -/
theorem file_ne_of_ne_name (storage : Storage) {suffix : String} (hne : other ≠ name)
    (hsuffix : suffix = "_nodes.json" ∨ suffix = "_rels.json") :
    storage.directory ++ [other ++ suffix] ≠ storage.directory ++ [name ++ "_nodes.json"]
      ∧ storage.directory ++ [other ++ suffix]
          ≠ storage.directory ++ [name ++ "_nodes.json" ++ ".tmp"]
      ∧ storage.directory ++ [other ++ suffix] ≠ storage.directory ++ [name ++ "_rels.json"]
      ∧ storage.directory ++ [other ++ suffix]
          ≠ storage.directory ++ [name ++ "_rels.json" ++ ".tmp"] := by
  have hnodes : 9 ≤ "_nodes.json".length := by decide
  have hrels : 9 ≤ "_rels.json".length := by decide
  have hnodesTmp : 9 ≤ "_nodes.json.tmp".length := by decide
  have hrelsTmp : 9 ≤ "_rels.json.tmp".length := by decide
  have htmp : ∀ suffix, name ++ suffix ++ ".tmp" = name ++ (suffix ++ ".tmp") :=
    fun suffix => String.append_assoc
  refine ⟨file_ne_file _ ?_, file_ne_file _ ?_, file_ne_file _ ?_, file_ne_file _ ?_⟩
  · rcases hsuffix with rfl | rfl
    · exact append_ne_of_ne hne _
    · exact append_ne_of_ending hrels hnodes (by decide) other name
  · rw [htmp]
    rcases hsuffix with rfl | rfl
    · exact append_ne_of_ending hnodes hnodesTmp (by decide) other name
    · exact append_ne_of_ending hrels hnodesTmp (by decide) other name
  · rcases hsuffix with rfl | rfl
    · exact append_ne_of_ending hnodes hrels (by decide) other name
    · exact append_ne_of_ne hne _
  · rw [htmp]
    rcases hsuffix with rfl | rfl
    · exact append_ne_of_ending hnodes hrelsTmp (by decide) other name
    · exact append_ne_of_ending hrels hrelsTmp (by decide) other name

/-- A file with the one or the other ending, of another database. -/
theorem entry?_save_of_ne_name {store : Store} {suffix : String} (hne : other ≠ name)
    (hsuffix : suffix = "_nodes.json" ∨ suffix = "_rels.json") :
    Disk.entry? (storage.save disk name store).1 (storage.directory ++ [other ++ suffix])
      = disk.entry? (storage.directory ++ [other ++ suffix]) := by
  obtain ⟨h₁, h₂, h₃, h₄⟩ := file_ne_of_ne_name storage hne hsuffix
  exact entry?_save_of_ne disk store h₁ h₂ h₃ h₄

theorem endsAtMissing_congr {left right : Disk} (names : List String) : ∀ {place : Path},
    (∀ way, way <+: place ++ names → left.entry? way = right.entry? way) →
    left.endsAtMissing place names = right.endsAtMissing place names := by
  induction names with
  | nil => exact fun _ => rfl
  | cons name rest ih =>
    intro place h
    have hway : place ++ name :: rest = place ++ [name] ++ rest := by
      rw [List.append_assoc, List.singleton_append]
    rw [hway] at h
    unfold Disk.endsAtMissing
    dsimp only
    rw [h _ (List.prefix_append _ rest), ih h]

/-- What a file of a directory is read as depends on the file and on the way to
it. -/
theorem readCollection_congr {ρ : Type} {ofRecord? : Json → Option ρ} {left right : Disk}
    {directory : Path} {base : String}
    (hway : ∀ place, place <+: directory → left.entry? place = right.entry? place)
    (hfile : left.entry? (directory ++ [base]) = right.entry? (directory ++ [base])) :
    storage.readCollection ofRecord? left (directory ++ [base])
      = storage.readCollection ofRecord? right (directory ++ [base]) := by
  have hmissing : left.isMissing (directory ++ [base]) = right.isMissing (directory ++ [base]) := by
    refine endsAtMissing_congr _ (fun place hplace => ?_)
    rcases List.prefix_concat_iff.1 hplace with rfl | hplace
    · exact hfile
    · exact hway place hplace
  unfold readCollection
  rw [hfile, hmissing]

/-- What is loaded depends on two files, and on the way to them. -/
theorem load_congr {left right : Disk}
    (hway : ∀ place, place <+: storage.directory → left.entry? place = right.entry? place)
    (hnodes : left.entry? (storage.nodesFile name) = right.entry? (storage.nodesFile name))
    (hrels : left.entry? (storage.relationshipsFile name)
      = right.entry? (storage.relationshipsFile name)) :
    storage.load left name = storage.load right name := by
  unfold load nodesFile relationshipsFile
  rw [readCollection_congr hway hnodes, readCollection_congr hway hrels]

/-- The way to a directory does not go through a file in it. -/
theorem file_ne_of_above {directory place : Path} (h : place <+: directory) (base : String) :
    place ≠ directory ++ [base] := by
  rintro rfl
  have hlength := h.length_le
  rw [List.length_append, List.length_singleton] at hlength
  exact Nat.not_succ_le_self _ hlength

theorem load_eq_ok_iff {loaded : Store} :
    storage.load disk name = .ok loaded ↔ validateName name = .ok ()
      ∧ ∃ nodes relationships,
        storage.readCollection Node.ofRecord? disk (storage.nodesFile name) = .ok nodes
        ∧ storage.readCollection Relationship.ofRecord? disk (storage.relationshipsFile name)
          = .ok relationships
        ∧ loaded = Store.ofCollections nodes relationships := by
  unfold load
  cases validateName name with
  | error error => exact ⟨nofun, nofun⟩
  | ok =>
    cases storage.readCollection Node.ofRecord? disk (storage.nodesFile name) with
    | error error => exact ⟨nofun, fun ⟨_, _, _, h, _⟩ => nomatch h⟩
    | ok nodes =>
      cases storage.readCollection Relationship.ofRecord? disk
          (storage.relationshipsFile name) with
      | error error => exact ⟨nofun, fun ⟨_, _, _, _, h, _⟩ => nomatch h⟩
      | ok relationships =>
        constructor
        · intro h
          exact ⟨rfl, nodes, relationships, rfl, rfl, (Except.ok.inj h).symm⟩
        · rintro ⟨-, _, _, hnodes, hrelationships, rfl⟩
          cases hnodes
          cases hrelationships
          rfl

theorem validateName_of_load {loaded : Store} (h : storage.load disk name = .ok loaded) :
    validateName name = .ok () :=
  (load_eq_ok_iff.1 h).1

/-- In a directory without files there are no databases but empty ones. -/
theorem eq_empty_of_load {loaded : Store}
    (hempty : ∀ base, disk.entry? (storage.directory ++ [base]) = none)
    (h : storage.load disk name = .ok loaded) : loaded = .empty := by
  have hread : ∀ {ρ : Type} {ofRecord? : Json → Option ρ} {base : String}
      {collection : Collection ρ}, storage.readCollection ofRecord? disk
        (storage.directory ++ [base]) = .ok collection → collection = .empty := by
    intro ρ ofRecord? base collection hcollection
    obtain ⟨-, -, hfile⟩ := readCollection_eq_ok_iff.1 hcollection
    rw [hempty] at hfile
    cases hfile
    rfl
  obtain ⟨-, nodes, relationships, hnodes, hrelationships, rfl⟩ := load_eq_ok_iff.1 h
  rw [hread hnodes, hread hrelationships]
  rfl

/-- **Saving one database leaves every other one as it is**, even if it
fails. -/
theorem load_save_of_ne {store : Store} (hne : other ≠ name) :
    storage.load (storage.save disk name store).1 other = storage.load disk other :=
  load_congr
    (fun _ hway => entry?_save_of_ne disk store (file_ne_of_above hway _)
      (file_ne_of_above hway _) (file_ne_of_above hway _) (file_ne_of_above hway _))
    (entry?_save_of_ne_name hne (.inl rfl)) (entry?_save_of_ne_name hne (.inr rfl))

theorem load_saved_of_ne {store : Store} (hcan : CanSave storage disk name) (hne : other ≠ name) :
    storage.load (storage.saved disk name store) other = storage.load disk other := by
  have hload : storage.load (storage.save disk name store).1 other = storage.load disk other :=
    load_save_of_ne hne
  rwa [save_eq_ok_iff.2 ⟨hcan, rfl⟩] at hload

/-! ## §3. Directories. -/

/-- A directory is no file that a save replaces. -/
theorem isDirectory_saved {store : Store} (hcan : CanSave storage disk name) {path : Path}
    (h : disk.isDirectory path = true) :
    (storage.saved disk name store).isDirectory path = true := by
  have hne : ∀ {file : Path}, ¬ disk.isDirectory file = true → path ≠ file := by
    rintro file hnot rfl
    exact hnot h
  have hentry := entry?_save_of_ne disk store (hne hcan.nodes.targetFree)
    (hne hcan.nodes.temporaryFree) (hne hcan.rels.targetFree) (hne hcan.rels.temporaryFree)
  rw [save_eq_ok_iff.2 ⟨hcan, rfl⟩] at hentry
  unfold Disk.isDirectory at h ⊢
  rwa [hentry]

end Storage

end PropertyGraph
