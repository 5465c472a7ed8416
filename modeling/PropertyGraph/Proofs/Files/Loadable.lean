/-
  PropertyGraph.Proofs.Files.Loadable
  ───────────────────────────────────
  **WHICH SAVED STORES CAN BE LOADED AGAIN.**

  A save sets no limit to nesting and a load does, so what was saved can be
  loaded again if and only if neither file is nested deeper than a reader
  admits (`exists_load_iff_of_save`).  Nothing else stands in the way, because
  whatever was written is read as something (`load_saved_cases`).

  An envelope is nested one level deeper than a bare list of records, so a
  file may be loaded, saved, and then refused (`load_save_load_deep`).
-/
import PropertyGraph.Proofs.Files.Repeats

namespace PropertyGraph

open Disk

/-! ## §1. Loading what was saved. -/

namespace Storage

variable {storage : Storage} {disk after : Disk} {name : String} {store : Store}

/-- **What was saved can be loaded again** if and only if neither file is nested
deeper than a reader admits: whatever the values in the store, whether it was
built by operations or loaded, in either layout. -/
theorem exists_load_iff_of_save (h : store.Obtainable) (hids : store.InRange)
    (hsave : storage.save disk name store = (after, .ok ())) :
    (∃ loaded, storage.load after name = .ok loaded) ↔ store.NestedWithin nestingLimit := by
  obtain ⟨hcan, rfl⟩ := save_eq_ok_iff.1 hsave
  obtain ⟨hloaded, hdepth⟩ | ⟨hrefused, hdeep⟩ := load_saved_cases h.integral hids hcan
  · obtain ⟨nodes, relationships, hload, -, -⟩ := hloaded
    exact iff_of_true ⟨_, hload⟩ hdepth
  · refine iff_of_false ?_ hdeep
    rintro ⟨loaded, hload⟩
    rw [hrefused] at hload
    cases hload

end Storage

/-! ## §2. Two stores. -/

/-- `1223088980058.8599`, which is read as another float. -/
def drifting : Finite64 := ⟨false, 4787832576729787842, by decide⟩

/-- One node whose floats all come back as something else. -/
def driftingStore : Store :=
  (Store.empty.run [.createNode ["A"] (.ofList [("heights", .list [.float .nan,
    .float (.infinite true), .float (.finite drifting)]), ("name", .str "\"Zoë\"\n")])]).2

namespace Storage

theorem exists_load_iff_of_save_drifting :
    ¬ Json.ReadsBack drifting ∧ driftingStore.Obtainable ∧ driftingStore.InRange
      ∧ driftingStore.NestedWithin nestingLimit
      ∧ ∃ after loaded, dataStorage.save dataDisk "default" driftingStore = (after, .ok ())
          ∧ dataStorage.load after "default" = .ok loaded := by
  have hobtainable : driftingStore.Obtainable := Store.Obtainable.empty.run _
  have hids : driftingStore.InRange := Store.IdsFit.inRange (by decide +kernel)
  have hdepth : driftingStore.NestedWithin nestingLimit :=
    ⟨by decide +kernel, by decide +kernel⟩
  have hsave : dataStorage.save dataDisk "default" driftingStore
      = (saved dataStorage dataDisk "default" driftingStore, .ok ()) := by
    refine save_eq_ok_iff.2 ⟨⟨by decide, by decide, by decide, ?_, ?_⟩, rfl⟩
    · exact ⟨by decide, by decide, by decide, by decide, rfl, by decide, by decide⟩
    · exact ⟨by decide, by decide, by decide, by decide, rfl, by decide, by decide⟩
  obtain ⟨loaded, hload⟩ := (exists_load_iff_of_save hobtainable hids hsave).2 hdepth
  exact ⟨by decide +kernel, hobtainable, hids, hdepth, _, loaded, hsave, hload⟩

end Storage

/-- An empty list inside that many others. -/
def nestedList : Nat → Json
  | 0 => .array []
  | levels + 1 => .array [nestedList levels]

theorem legible_nestedList (levels : Nat) : (nestedList levels).Legible := by
  induction levels with
  | zero => trivial
  | succ levels ih => exact ⟨ih, trivial⟩

/-- A bare list of one node, nested just as deep as a reader admits. -/
def deepNodes : Json :=
  .array [.object [("id", .int 1), ("properties", .object [("a", nestedList 123)])]]

/-- A database is loaded, saved, and cannot be loaded any more. -/
theorem load_save_load_deep :
    ∃ store, dataStorage.load (filesDisk deepNodes (.array [])) "default" = .ok store
      ∧ ∃ after, dataStorage.save (filesDisk deepNodes (.array [])) "default" store
          = (after, .ok ())
        ∧ dataStorage.load after "default" = .error .malformedData := by
  have hnodes : deepNodes.Legible :=
    ⟨⟨⟨by decide, by decide⟩, ⟨legible_nestedList 123, trivial⟩, trivial⟩, trivial⟩
  have hnone : (Json.array []).Legible := trivial
  have hread := readCollection_filesDisk ⟨hnodes, by decide +kernel, rfl⟩
    ⟨hnone, by decide, rfl⟩
  have hload := load_filesDisk hread
  have hcan : Storage.CanSave dataStorage (filesDisk deepNodes (.array [])) "default" := by
    refine ⟨by decide, by decide, by decide, ?_, ?_⟩
    · exact ⟨by decide, by decide, by decide, by decide, rfl, by decide, by decide⟩
    · exact ⟨by decide, by decide, by decide, by decide, rfl, by decide, by decide⟩
  refine ⟨_, hload, _, Storage.save_eq_ok_iff.2 ⟨hcan, rfl⟩, ?_⟩
  -- the envelope takes the nodes one level deeper than the bare list had them
  obtain ⟨-, hdepth⟩ | ⟨hrefused, -⟩ := Storage.load_saved_cases
    (Store.Obtainable.load hload).integral (Store.IdsFit.inRange (by decide +kernel)) hcan
  · exact absurd hdepth.1 (by decide +kernel)
  · exact hrefused

end PropertyGraph
