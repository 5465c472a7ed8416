/-
  PropertyGraph.Proofs.Files.Replace
  ──────────────────────────────────
  **REPLACING A FILE, IN ONE STEP.**

  `replaceFile` creates, writes and renames.  If it succeeds, the disk after
  it is the disk before it with the new text at its place and nothing at the
  temporary one (`replaced`); whether it succeeds depends on the disk before
  it alone (`CanReplace`), and not on the text.

      replaceFile_eq_true_iff  — success, and the disk after it
      replaced_of_present      — replacing a text by itself changes nothing
-/
import PropertyGraph.Files.Disk
import PropertyGraph.Proofs.SortedMap.Membership

namespace PropertyGraph.Disk

variable {disk after : Disk} {directory : Path} {base : String} {path other : Path}

/-! ## §1. Changes through look-ups. -/

theorem entry?_of_ne_nil (h : path ≠ []) : disk.entry? path = disk.entries.find? path :=
  if_neg h

theorem entry?_put (entry : DiskEntry) (h : path ≠ []) (other : Path) :
    Disk.entry? (disk.put path entry) other
      = if other = path then some entry else disk.entry? other := by
  by_cases hother : other = []
  · subst hother
    rw [if_neg (fun heq => h heq.symm)]
    rfl
  · rw [entry?_of_ne_nil hother, entry?_of_ne_nil hother]
    exact SortedMap.find?_insert_eq disk.entries path other entry

theorem isDirectory_put_of_ne (entry : DiskEntry) (h : path ≠ []) (hother : other ≠ path) :
    (disk.put path entry).isDirectory other = disk.isDirectory other := by
  unfold isDirectory
  rw [entry?_put entry h, if_neg hother]

theorem put_put (first second : DiskEntry) :
    (disk.put path first).put path second = disk.put path second := by
  unfold put
  congr 1
  apply SortedMap.ext_find?
  intro sought
  rw [SortedMap.find?_insert_eq, SortedMap.find?_insert_eq, SortedMap.find?_insert_eq]
  split <;> rfl

theorem erase_put (entry : DiskEntry) : (disk.put path entry).erase path = disk.erase path := by
  unfold erase put
  congr 1
  apply SortedMap.ext_find?
  intro sought
  rw [SortedMap.find?_erase_eq, SortedMap.find?_insert_eq, SortedMap.find?_erase_eq]
  split <;> rfl

/-- What has been put there is removed, if it can be. -/
theorem removeFile_put (content : FileContent) (h : path ≠ []) :
    (disk.put path (.file content)).removeFile path
      = if .remove path ∈ disk.faults then disk.put path (.file content)
        else disk.erase path := by
  unfold removeFile
  rw [entry?_put _ h, if_pos rfl]
  dsimp only
  rw [erase_put]
  rfl

/-! ## §2. The temporary file. -/

theorem temporary_append (directory : Path) (base : String) :
    temporary (directory ++ [base]) = directory ++ [base ++ ".tmp"] := by
  unfold temporary
  rw [List.dropLast_concat, List.getLast?_concat]
  rfl

theorem append_tmp_ne (base : String) : base ++ ".tmp" ≠ base := by
  intro heq
  have hlength := congrArg String.length heq
  rw [String.length_append] at hlength
  have htmp : ".tmp".length = 4 := rfl
  omega

/-- A directory is no file in it. -/
theorem ne_append_singleton (directory : Path) (base : String) :
    directory ≠ directory ++ [base] := by
  intro heq
  have hlength := congrArg List.length heq
  rw [List.length_append] at hlength
  exact absurd hlength (Nat.ne_of_lt (Nat.lt_succ_self _))

/-! ## §3. Success. -/

/-- The disk with a new text at a path and nothing at the temporary one. -/
def replaced (disk : Disk) (path : Path) (text : String) : Disk :=
  { disk with entries := (disk.entries.erase (temporary path)).insert path (.file (.text text)) }

/-- Nothing prevents the file `base` of a directory from being replaced. -/
structure CanReplace (disk : Disk) (directory : Path) (base : String) : Prop where
  noCreateFault : .create (directory ++ [base ++ ".tmp"]) ∉ disk.faults
  temporaryFree : ¬ disk.isDirectory (directory ++ [base ++ ".tmp"])
  isDirectory : disk.isDirectory directory
  shortName : hasShortName (directory ++ [base ++ ".tmp"])
  noWriteFault : disk.writeFault? (directory ++ [base ++ ".tmp"]) = none
  noRenameFault : .rename (directory ++ [base]) ∉ disk.faults
  targetFree : ¬ disk.isDirectory (directory ++ [base])

theorem createFile_eq_some_iff {path : Path} :
    disk.createFile path = some after
      ↔ (.create path ∉ disk.faults ∧ ¬ disk.isDirectory path
          ∧ disk.isDirectory path.dropLast ∧ hasShortName path)
        ∧ after = disk.put path (.file (.text "")) := by
  unfold createFile
  split
  -- one of the four conditions fails
  next h =>
    constructor
    · intro heq
      cases heq
    · intro hex
      obtain ⟨⟨h₁, h₂, h₃, h₄⟩, -⟩ := hex
      rcases h with h | h | h | h
      · exact absurd h h₁
      · exact absurd h h₂
      · exact absurd h₃ h
      · exact absurd h₄ h
  next h =>
    constructor
    · intro heq
      refine ⟨⟨fun h₁ => h (.inl h₁), fun h₂ => h (.inr (.inl h₂)), ?_, ?_⟩,
        (Option.some.inj heq).symm⟩
      · exact Decidable.byContradiction (fun h₃ => h (.inr (.inr (.inl h₃))))
      · exact Decidable.byContradiction (fun h₄ => h (.inr (.inr (.inr h₄))))
    · intro hex
      obtain ⟨-, rfl⟩ := hex
      rfl

theorem writeText_put {text : String} (first : DiskEntry) :
    (disk.put path first).writeText path text
      = match disk.writeFault? path with
        | some part => (disk.put path (.file (.text part)), false)
        | none => (disk.put path (.file (.text text)), true) := by
  have hfault : (disk.put path first).writeFault? path = disk.writeFault? path := rfl
  unfold writeText
  rw [hfault]
  cases disk.writeFault? path with
  | none =>
    dsimp only
    rw [put_put]
  | some part =>
    dsimp only
    rw [put_put]

/-- Moving a file that has just been put at `path`. -/
theorem rename_put_eq_some_iff {content : FileContent} {target : Path} (hpath : path ≠ [])
    (htarget : target ≠ path) (hdirectory : target.dropLast ≠ path) :
    (disk.put path (.file content)).rename path target = some after
      ↔ (.rename target ∉ disk.faults ∧ ¬ disk.isDirectory target
          ∧ disk.isDirectory target.dropLast)
        ∧ after = (disk.erase path).put target (.file content) := by
  unfold rename
  -- the temporary file is there, and nothing else has changed since
  rw [entry?_put _ hpath, if_pos rfl, isDirectory_put_of_ne _ hpath htarget,
    isDirectory_put_of_ne _ hpath hdirectory]
  dsimp only
  rw [erase_put]
  split
  next h =>
    constructor
    · intro heq
      cases heq
    · intro hex
      obtain ⟨⟨h₁, h₂, h₃⟩, -⟩ := hex
      rcases h with h | h | h
      · exact absurd h h₁
      · exact absurd h h₂
      · exact absurd h₃ h
  next h =>
    constructor
    · intro heq
      refine ⟨⟨fun h₁ => h (.inl h₁), fun h₂ => h (.inr (.inl h₂)), ?_⟩,
        (Option.some.inj heq).symm⟩
      exact Decidable.byContradiction (fun h₃ => h (.inr (.inr h₃)))
    · intro hex
      obtain ⟨-, rfl⟩ := hex
      rfl

theorem append_singleton_ne_nil (directory : Path) (base : String) : directory ++ [base] ≠ [] := by
  intro heq
  cases (List.append_eq_nil_iff.1 heq).2

/-- **What a successful replacement does**, and when it succeeds. -/
theorem replaceFile_eq_true_iff {text : String} :
    disk.replaceFile (directory ++ [base]) text = (after, true)
      ↔ CanReplace disk directory base ∧ after = disk.replaced (directory ++ [base]) text := by
  have htemp : directory ++ [base ++ ".tmp"] ≠ [] := append_singleton_ne_nil directory _
  have htarget : directory ++ [base] ≠ directory ++ [base ++ ".tmp"] := by
    intro heq
    exact append_tmp_ne base (List.cons.inj (List.append_cancel_left heq)).1.symm
  -- the temporary file is neither the target nor the directory of both
  have hdirectory : (directory ++ [base]).dropLast ≠ directory ++ [base ++ ".tmp"] := by
    rw [List.dropLast_concat]
    exact ne_append_singleton directory _
  unfold replaceFile
  rw [temporary_append]
  constructor
  · intro h
    -- success means that each of the three steps succeeded
    cases hcreate : disk.createFile (directory ++ [base ++ ".tmp"]) with
    | none =>
      rw [hcreate] at h
      cases h
    | some created =>
      obtain ⟨⟨hnoCreate, htempFree, hdir, hshort⟩, rfl⟩ := createFile_eq_some_iff.1 hcreate
      rw [hcreate] at h
      dsimp only at h
      rw [writeText_put] at h
      rw [List.dropLast_concat] at hdir
      cases hfault : disk.writeFault? (directory ++ [base ++ ".tmp"]) with
      | some part =>
        rw [hfault] at h
        cases h
      | none =>
        rw [hfault] at h
        dsimp only at h
        cases hrename : (disk.put (directory ++ [base ++ ".tmp"]) (.file (.text text))).rename
            (directory ++ [base ++ ".tmp"]) (directory ++ [base]) with
        | none =>
          rw [hrename] at h
          cases h
        | some renamed =>
          rw [hrename] at h
          obtain ⟨rfl, -⟩ := Prod.mk.inj h
          obtain ⟨⟨hnoRename, htargetFree, -⟩, rfl⟩ :=
            (rename_put_eq_some_iff htemp htarget hdirectory).1 hrename
          refine ⟨⟨hnoCreate, htempFree, hdir, hshort, hfault, hnoRename, htargetFree⟩, ?_⟩
          rw [replaced, temporary_append]
          rfl
  · intro hex
    obtain ⟨h, rfl⟩ := hex
    have hdir : disk.isDirectory (directory ++ [base ++ ".tmp"]).dropLast = true := by
      rw [List.dropLast_concat]
      exact h.isDirectory
    have hdir' : disk.isDirectory (directory ++ [base]).dropLast = true := by
      rw [List.dropLast_concat]
      exact h.isDirectory
    have hrename : (disk.put (directory ++ [base ++ ".tmp"]) (.file (.text text))).rename
        (directory ++ [base ++ ".tmp"]) (directory ++ [base])
          = some (disk.replaced (directory ++ [base]) text) := by
      refine (rename_put_eq_some_iff htemp htarget hdirectory).2
        ⟨⟨h.noRenameFault, h.targetFree, hdir'⟩, ?_⟩
      rw [replaced, temporary_append]
      rfl
    rw [createFile_eq_some_iff.2
      ⟨⟨h.noCreateFault, h.temporaryFree, hdir, h.shortName⟩, rfl⟩]
    dsimp only
    rw [writeText_put, h.noWriteFault]
    dsimp only
    rw [hrename]

/-! ## §4. The disk after a replacement. -/

theorem entry?_removeFile (h : other ≠ path) :
    Disk.entry? (disk.removeFile path) other = disk.entry? other := by
  unfold removeFile
  split
  · split
    · rfl
    · unfold entry? erase
      rw [SortedMap.find?_erase_eq, if_neg h]
  · rfl

/-- A replacement that fails touches the temporary file at most. -/
theorem entry?_of_replaceFile_eq_false {text : String}
    (h : disk.replaceFile (directory ++ [base]) text = (after, false))
    (hne : other ≠ directory ++ [base ++ ".tmp"]) : after.entry? other = disk.entry? other := by
  have htemp : directory ++ [base ++ ".tmp"] ≠ [] := append_singleton_ne_nil directory _
  have hput : ∀ (disk : Disk) (entry : DiskEntry),
      Disk.entry? (disk.put (directory ++ [base ++ ".tmp"]) entry) other = disk.entry? other :=
    fun disk entry => by rw [entry?_put entry htemp, if_neg hne]
  unfold replaceFile at h
  rw [temporary_append] at h
  cases hcreate : disk.createFile (directory ++ [base ++ ".tmp"]) with
  | none =>
    rw [hcreate] at h
    obtain ⟨rfl, -⟩ := Prod.mk.inj h
    exact entry?_removeFile hne
  | some created =>
    obtain ⟨-, rfl⟩ := createFile_eq_some_iff.1 hcreate
    rw [hcreate] at h
    dsimp only at h
    rw [writeText_put] at h
    cases hfault : disk.writeFault? (directory ++ [base ++ ".tmp"]) with
    | some part =>
      rw [hfault] at h
      obtain ⟨rfl, -⟩ := Prod.mk.inj h
      exact (entry?_removeFile hne).trans (hput _ _)
    | none =>
      rw [hfault] at h
      dsimp only at h
      -- all of the text arrived, so it is the renaming that failed
      split at h
      next =>
        obtain ⟨rfl, -⟩ := Prod.mk.inj h
        exact (entry?_removeFile hne).trans (hput _ _)
      next => cases h

theorem entry?_replaced (disk : Disk) (directory : Path) (base text : String) (other : Path) :
    Disk.entry? (disk.replaced (directory ++ [base]) text) other
      = if other = directory ++ [base] then some (.file (.text text))
        else if other = directory ++ [base ++ ".tmp"] then none else disk.entry? other := by
  by_cases hother : other = []
  · subst hother
    rw [if_neg (append_singleton_ne_nil directory base).symm,
      if_neg (append_singleton_ne_nil directory _).symm]
    rfl
  · rw [entry?_of_ne_nil hother, entry?_of_ne_nil hother, replaced, temporary_append]
    dsimp only
    rw [SortedMap.find?_insert_eq, SortedMap.find?_erase_eq]

/-- The directory itself is not touched. -/
theorem isDirectory_replaced (disk : Disk) (directory : Path) (base text : String) :
    (disk.replaced (directory ++ [base]) text).isDirectory directory
      = disk.isDirectory directory := by
  unfold isDirectory
  rw [entry?_replaced, if_neg (ne_append_singleton directory base),
    if_neg (ne_append_singleton directory _)]

theorem canReplace_congr {left right : Disk} (hfaults : left.faults = right.faults)
    (hdirectory : left.isDirectory directory = right.isDirectory directory)
    (htemporary : left.isDirectory (directory ++ [base ++ ".tmp"])
      = right.isDirectory (directory ++ [base ++ ".tmp"]))
    (htarget : left.isDirectory (directory ++ [base]) = right.isDirectory (directory ++ [base]))
    (h : CanReplace left directory base) : CanReplace right directory base where
  noCreateFault := hfaults ▸ h.noCreateFault
  temporaryFree := htemporary ▸ h.temporaryFree
  isDirectory := hdirectory ▸ h.isDirectory
  shortName := h.shortName
  noWriteFault := by
    have hfault := h.noWriteFault
    unfold writeFault? at hfault ⊢
    rw [← hfaults]
    exact hfault
  noRenameFault := hfaults ▸ h.noRenameFault
  targetFree := htarget ▸ h.targetFree

/-- Replacing one file does not stand in the way of another. -/
theorem canReplace_replaced_iff {second text : String}
    (hne : base ≠ second ∧ base ≠ second ++ ".tmp" ∧ base ++ ".tmp" ≠ second
      ∧ base ++ ".tmp" ≠ second ++ ".tmp") :
    CanReplace (disk.replaced (directory ++ [base]) text) directory second
      ↔ CanReplace disk directory second := by
  have hfile : ∀ {left right : String}, left ≠ right → directory ++ [right] ≠ directory ++ [left] :=
    fun h heq => h (List.cons.inj (List.append_cancel_left heq)).1.symm
  obtain ⟨h₁, h₂, h₃, h₄⟩ := hne
  have hdirectory := isDirectory_replaced disk directory base text
  have htemporary : (disk.replaced (directory ++ [base]) text).isDirectory
      (directory ++ [second ++ ".tmp"]) = disk.isDirectory (directory ++ [second ++ ".tmp"]) := by
    unfold isDirectory
    rw [entry?_replaced, if_neg (hfile h₂), if_neg (hfile h₄)]
  have htarget : (disk.replaced (directory ++ [base]) text).isDirectory
      (directory ++ [second]) = disk.isDirectory (directory ++ [second]) := by
    unfold isDirectory
    rw [entry?_replaced, if_neg (hfile h₁), if_neg (hfile h₃)]
  exact ⟨canReplace_congr rfl hdirectory htemporary htarget,
    canReplace_congr rfl hdirectory.symm htemporary.symm htarget.symm⟩

/-- A file that has been replaced can be replaced again. -/
theorem CanReplace.replaced (h : CanReplace disk directory base) (text : String) :
    CanReplace (disk.replaced (directory ++ [base]) text) directory base where
  noCreateFault := h.noCreateFault
  temporaryFree := by
    unfold Disk.isDirectory
    rw [entry?_replaced, if_pos rfl]
    split
    · exact fun heq => nomatch of_decide_eq_true heq
    · exact fun heq => nomatch of_decide_eq_true heq
  isDirectory := by
    rw [isDirectory_replaced]
    exact h.isDirectory
  shortName := h.shortName
  noWriteFault := h.noWriteFault
  noRenameFault := h.noRenameFault
  targetFree := by
    unfold Disk.isDirectory
    rw [entry?_replaced, if_pos rfl]
    exact fun heq => nomatch of_decide_eq_true heq

/-- **Replacing a text by itself changes nothing** once its temporary file is
gone. -/
theorem replaced_of_present {text : String}
    (htemporary : disk.entry? (directory ++ [base ++ ".tmp"]) = none)
    (hpresent : disk.entry? (directory ++ [base]) = some (.file (.text text))) :
    disk.replaced (directory ++ [base]) text = disk := by
  rw [entry?_of_ne_nil (append_singleton_ne_nil _ _)] at htemporary hpresent
  have hentries : (disk.entries.erase (temporary (directory ++ [base]))).insert
      (directory ++ [base]) (.file (.text text)) = disk.entries := by
    apply SortedMap.ext_find?
    intro sought
    rw [temporary_append, SortedMap.find?_insert_eq, SortedMap.find?_erase_eq]
    by_cases hsought : sought = directory ++ [base]
    · rw [if_pos hsought, hsought, hpresent]
    · rw [if_neg hsought]
      by_cases htemp : sought = directory ++ [base ++ ".tmp"]
      · rw [if_pos htemp, htemp, htemporary]
      · rw [if_neg htemp]
  unfold replaced
  rw [hentries]

end PropertyGraph.Disk
