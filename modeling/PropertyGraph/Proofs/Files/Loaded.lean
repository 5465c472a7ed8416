/-
  PropertyGraph.Proofs.Files.Loaded
  ─────────────────────────────────
  **EVERY STORE THAT THERE CAN BE.**

  A store begins empty or is loaded from files, whatever they hold, and
  changes by operations (`Store.Obtainable`).  Files may repeat ids and
  leave entries of replaced entities in the indices, so such a store need
  not be coherent; but it is always integral.
-/
import PropertyGraph.Proofs.Files.Apart
import PropertyGraph.Proofs.Files.Freshness

namespace PropertyGraph.Store

/-- The empty store, what is loaded from any files, and whatever operations
make of them. -/
inductive Obtainable : Store → Prop where
  | empty : Obtainable empty
  | load {storage : Storage} {disk : Disk} {name : String} {store : Store}
      (h : storage.load disk name = .ok store) : Obtainable store
  | apply {store : Store} (h : Obtainable store) (operation : StoreOperation) :
      Obtainable (store.apply operation).2

theorem Obtainable.run (operations : List StoreOperation) :
    ∀ {store : Store}, Obtainable store → Obtainable (store.run operations).2 := by
  induction operations with
  | nil => exact fun h => h
  | cons operation rest ih => exact fun h => ih (h.apply operation)

/-- **Every store is integral.** -/
theorem Obtainable.integral {store : Store} (h : Obtainable store) : store.Integral := by
  induction h with
  | empty => exact coherent_empty.toIntegral
  | load h =>
    obtain ⟨-, nodes, relationships, -, -, rfl⟩ := Storage.load_eq_ok_iff.1 h
    exact integral_ofCollections nodes relationships
  | apply _ operation ih => exact ih.apply operation

end PropertyGraph.Store
