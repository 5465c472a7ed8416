/-
  PropertyGraph.Proofs.Files.Preserved
  ────────────────────────────────────
  **STORES THAT FILES GIVE BACK UNCHANGED.**

  A property map comes back from a file if its finite floats read back, no
  other float is in it, and it is not nested too deeply.  A store whose
  properties all come back comes back itself (`preserved_of_holds`), provided
  that its ids fit 64 bits.
-/
import PropertyGraph.Proofs.Files.SaveLoad
import PropertyGraph.Proofs.Store.Contents

namespace PropertyGraph

/-! ## §1. Depth of a file. -/

namespace Json

theorem depthItems_le {items : List Json} {limit : Nat} (h : ∀ item ∈ items, item.depth ≤ limit) :
    depthItems items ≤ limit := by
  induction items with
  | nil => exact Nat.zero_le limit
  | cons item rest ih =>
    rw [depthItems]
    exact Nat.max_le.2 ⟨h item List.mem_cons_self,
      ih (fun other hother => h other (List.mem_cons_of_mem item hother))⟩

theorem depthMembers_le {members : List (String × Json)} {limit : Nat}
    (h : ∀ member ∈ members, member.2.depth ≤ limit) : depthMembers members ≤ limit := by
  induction members with
  | nil => exact Nat.zero_le limit
  | cons member rest ih =>
    rw [depthMembers]
    exact Nat.max_le.2 ⟨h member List.mem_cons_self,
      ih (fun other hother => h other (List.mem_cons_of_mem member hother))⟩

end Json

theorem Node.depth_toRecord (node : Node) :
    node.toRecord.depth ≤ max 1 node.properties.toJson.depth + 1 := by
  have hlabels : (Json.array (node.labels.toList.map .str)).depth ≤ 1 := by
    refine Nat.succ_le_succ (Json.depthItems_le (fun item hitem => ?_))
    obtain ⟨label, -, rfl⟩ := List.mem_map.1 hitem
    exact Nat.le_refl _
  simp only [Node.toRecord, Json.depth, Json.depthMembers] at hlabels ⊢
  omega

theorem Relationship.depth_toRecord (r : Relationship) :
    r.toRecord.depth ≤ r.properties.toJson.depth + 1 := by
  simp only [Relationship.toRecord, Json.depth, Json.depthMembers]
  omega

theorem Collection.depth_envelope (limit : Nat) {nextId : Nat} {records : List Json}
    (h : ∀ record ∈ records, record.depth ≤ limit) :
    (envelope nextId records).depth ≤ limit + 2 := by
  have hrecords := Json.depthItems_le h
  simp only [envelope, Json.depth, Json.depthMembers]
  omega

/-! ## §2. Properties and stores. -/

/-- Properties that are read back as they were. -/
structure PropertyMap.ComesBack (properties : PropertyMap) : Prop where
  floats : properties.AllFloats Json.ReadsBack
  savedForm_eq : properties.savedForm = properties
  depth_le : properties.toJson.depth + 3 ≤ nestingLimit

theorem PropertyMap.comesBack_empty : (∅ : PropertyMap).ComesBack :=
  ⟨trivial, rfl, by decide⟩

namespace Store

variable {store : Store}

theorem Preserved.nodes_eq (h : store.Preserved) :
    store.nodes.mapValues Node.savedForm = store.nodes :=
  SortedMap.mapValues_of_forall h.node

theorem Preserved.filterValues_eq (h : store.Preserved) (p : Relationship → Bool) :
    (store.relationships.filterValues p).mapValues Relationship.savedForm
      = store.relationships.filterValues p := by
  refine SortedMap.mapValues_of_forall (fun r hr => ?_)
  rw [SortedMap.values_filterValues] at hr
  exact h.relationship r (List.mem_filter.1 hr).1

theorem Preserved.relationships_eq (h : store.Preserved) :
    store.relationships.mapValues Relationship.savedForm = store.relationships :=
  SortedMap.mapValues_of_forall h.relationship

/-- **A store whose properties come back comes back.** -/
theorem preserved_of_holds (hids : store.IdsFit) (h : store.Holds PropertyMap.ComesBack) :
    store.Preserved := by
  have hnode : ∀ node ∈ store.allNodes, node.properties.ComesBack := by
    intro node hmem
    obtain ⟨id, hfound⟩ := SortedMap.mem_values_iff.1 hmem
    exact h.node hfound
  have hrelationship : ∀ r ∈ store.allRelationships, r.properties.ComesBack := by
    intro r hmem
    obtain ⟨id, hfound⟩ := SortedMap.mem_values_iff.1 hmem
    exact h.relationship hfound
  have hlimit : nestingLimit = 127 := rfl
  refine
    { idsFit := hids
      nestedWithin := ⟨?_, ?_⟩
      floatsReadBack :=
        ⟨fun node hmem => (hnode node hmem).floats, fun r hmem => (hrelationship r hmem).floats⟩
      node := fun node hmem => ?_
      relationship := fun r hmem => ?_ }
  · refine Nat.le_trans (Collection.depth_envelope 125 (fun record hrecord => ?_))
      (Nat.le_of_eq hlimit.symm)
    obtain ⟨node, hmem, rfl⟩ := List.mem_map.1 hrecord
    have hdepth := (hnode node hmem).depth_le
    have hrecord := node.depth_toRecord
    omega
  · refine Nat.le_trans (Collection.depth_envelope 125 (fun record hrecord => ?_))
      (Nat.le_of_eq hlimit.symm)
    obtain ⟨r, hmem, rfl⟩ := List.mem_map.1 hrecord
    have hdepth := (hrelationship r hmem).depth_le
    have hrecord := r.depth_toRecord
    omega
  · rw [Node.savedForm, (hnode node hmem).savedForm_eq]
  · rw [Relationship.savedForm, (hrelationship r hmem).savedForm_eq]

end Store

end PropertyGraph
