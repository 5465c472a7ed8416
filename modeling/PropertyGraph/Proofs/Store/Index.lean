/-
  PropertyGraph.Proofs.Store.Index
  ────────────────────────────────
  **WHAT AN INDEX LISTS UNDER A KEY.**

  An index is looked at through one question only: is an id listed under a
  key?  Whether the entry of a key is missing or an empty set makes no
  difference to it.  Each way of changing an index changes the answers at
  one place:

      addUnder     k i  — now also lists i under k
      removeUnder  k i  — no longer lists i under k
      dropUnder    k i  — the same, whatever becomes of an empty entry
      erase        k    — lists nothing under k

  The labels of a node are entered and dropped one by one; `mem_idsUnder_addLabels`
  and `mem_idsUnder_dropLabels` say what all of them together do.
-/
import PropertyGraph.Proofs.SortedMap.Membership
import PropertyGraph.Store.Basic

namespace PropertyGraph.Store

section

variable {κ : Type} [Ord κ]

/-! ## §1. Entries. -/

theorem idsUnder_eq (index : SortedMap κ (SortedSet Nat)) (key : κ) :
    idsUnder index key = ((index.find? key).getD ∅).toList := by
  unfold idsUnder
  cases index.find? key <;> rfl

/-- Ids under a key ascend strictly. -/
theorem pairwise_idsUnder (index : SortedMap κ (SortedSet Nat)) (key : κ) :
    (idsUnder index key).Pairwise (fun a b => compare a b = .lt) := by
  rw [idsUnder_eq]
  exact SortedSet.pairwise_toList _

theorem idsUnder_of_find? {index : SortedMap κ (SortedSet Nat)} {key : κ} {ids : SortedSet Nat}
    (h : index.find? key = some ids) : idsUnder index key = ids.toList := by
  rw [idsUnder_eq, h]
  rfl

/-! ## §2. One change. -/

variable [Std.TransOrd κ] [Std.LawfulEqOrd κ] [DecidableEq κ]

omit [Std.TransOrd κ] in
theorem mem_idsUnder_erase {index : SortedMap κ (SortedSet Nat)} {gone key : κ} {id : Nat} :
    id ∈ idsUnder (index.erase gone) key ↔ key ≠ gone ∧ id ∈ idsUnder index key := by
  rw [idsUnder_eq, idsUnder_eq, SortedMap.find?_erase_eq]
  by_cases h : key = gone
  · rw [if_pos h]
    simp [h]
  · rw [if_neg h]
    simp [h]

theorem mem_idsUnder_insert {index : SortedMap κ (SortedSet Nat)} {target key : κ}
    {ids : SortedSet Nat} {id : Nat} :
    id ∈ idsUnder (index.insert target ids) key
      ↔ if key = target then id ∈ ids.toList else id ∈ idsUnder index key := by
  rw [idsUnder_eq, SortedMap.find?_insert_eq]
  split
  · rfl
  · rw [idsUnder_eq]

theorem mem_idsUnder_addUnder {index : SortedMap κ (SortedSet Nat)} {target key : κ}
    {new id : Nat} :
    id ∈ idsUnder (addUnder index target new) key
      ↔ (key = target ∧ id = new) ∨ id ∈ idsUnder index key := by
  rw [addUnder, mem_idsUnder_insert]
  by_cases h : key = target
  · rw [if_pos h, SortedSet.mem_toList_add, ← idsUnder_eq, h]
    simp
  · rw [if_neg h]
    simp [h]

theorem mem_idsUnder_removeUnder {index : SortedMap κ (SortedSet Nat)} {target key : κ}
    {old id : Nat} :
    id ∈ idsUnder (removeUnder index target old) key
      ↔ id ∈ idsUnder index key ∧ ¬ (key = target ∧ id = old) := by
  unfold removeUnder
  split
  next ids hids =>
    rw [mem_idsUnder_insert]
    by_cases h : key = target
    · rw [if_pos h, SortedSet.mem_toList_remove, h, idsUnder_of_find? hids]
      simp [and_comm]
    · rw [if_neg h]
      simp [h]
  next hnone =>
    by_cases h : key = target
    · rw [h, idsUnder_eq, hnone]
      simp
    · simp [h]

/-- Dropping an id differs from removing it only in what becomes of an entry
left empty. -/
theorem mem_idsUnder_dropUnder {index : SortedMap κ (SortedSet Nat)} {target key : κ}
    {old id : Nat} :
    id ∈ idsUnder (dropUnder index target old) key
      ↔ id ∈ idsUnder index key ∧ ¬ (key = target ∧ id = old) := by
  rw [← mem_idsUnder_removeUnder]
  unfold dropUnder removeUnder
  split
  next ids hids =>
    split
    next hempty =>
      rw [mem_idsUnder_erase, mem_idsUnder_insert]
      have hnil : (ids.remove old).toList = [] := by
        rw [SortedSet.toList, SortedMap.keys, List.isEmpty_iff.1 hempty]
        rfl
      by_cases h : key = target
      · rw [if_pos h, hnil]
        simp [h]
      · rw [if_neg h]
        simp [h]
    next => rfl
  next => rfl

/-! ## §3. All labels of a node. -/

theorem mem_idsUnder_addLabels {keys : List κ} {index : SortedMap κ (SortedSet Nat)}
    {key : κ} {new id : Nat} :
    id ∈ idsUnder (keys.foldl (fun index key => addUnder index key new) index) key
      ↔ (key ∈ keys ∧ id = new) ∨ id ∈ idsUnder index key := by
  induction keys generalizing index with
  | nil => simp
  | cons first rest ih =>
    rw [List.foldl_cons, ih, mem_idsUnder_addUnder, List.mem_cons]
    constructor
    · intro h
      rcases h with ⟨hrest, hid⟩ | ⟨hfirst, hid⟩ | hold
      · exact .inl ⟨.inr hrest, hid⟩
      · exact .inl ⟨.inl hfirst, hid⟩
      · exact .inr hold
    · intro h
      rcases h with ⟨hfirst | hrest, hid⟩ | hold
      · exact .inr (.inl ⟨hfirst, hid⟩)
      · exact .inl ⟨hrest, hid⟩
      · exact .inr (.inr hold)

theorem mem_idsUnder_dropLabels {keys : List κ} {index : SortedMap κ (SortedSet Nat)}
    {key : κ} {old id : Nat} :
    id ∈ idsUnder (keys.foldl (fun index key => dropUnder index key old) index) key
      ↔ id ∈ idsUnder index key ∧ ¬ (key ∈ keys ∧ id = old) := by
  induction keys generalizing index with
  | nil => simp
  | cons first rest ih =>
    rw [List.foldl_cons, ih, mem_idsUnder_dropUnder, List.mem_cons]
    constructor
    · intro hex
      obtain ⟨⟨hold, hfirst⟩, hrest⟩ := hex
      refine ⟨hold, ?_⟩
      intro hex
      obtain ⟨hk | hk, hid⟩ := hex
      · exact hfirst ⟨hk, hid⟩
      · exact hrest ⟨hk, hid⟩
    · intro hex
      obtain ⟨hold, hnot⟩ := hex
      exact ⟨⟨hold, fun h => hnot ⟨.inl h.1, h.2⟩⟩, fun h => hnot ⟨.inr h.1, h.2⟩⟩

end

end PropertyGraph.Store
