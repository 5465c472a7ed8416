/-
  PropertyGraph.Proofs.Session.Plan
  ─────────────────────────────────
  **WHAT A CREATE PATTERN ASKS FOR.**

  The positions of all chains of a pattern are numbered through.  The node of
  a position is founded at its ORIGIN: the position itself if it is anonymous,
  otherwise the first node position of the whole pattern with its variable.

      founders items n        — descriptors of the nodes that positions < n found
      nodeId items first i    — the id of the node of position i, if the nodes
                                are numbered from `first` in this order
      joins items first n     — the relationships that positions < n ask for,
                                from the node before to the node behind

  Two node positions have one node exactly if they are the same or share a
  variable (`nodeId_eq_iff`).  Nothing here depends on how a pattern is gone
  through.

  The numbers are ids only as far as 64 bits go.  A store has `Room` for a
  pattern if they go far enough.
-/
import PropertyGraph.Session.Creation

namespace PropertyGraph.Creation

open PropertyGraph.Query

/-! ## §1. Patterns that can be made. -/

section

variable {item : PatternItem PropertyMap} {items element : PatternElement PropertyMap}

/-- The node descriptor at a position. -/
def nodeAt? (items : PatternElement PropertyMap) (i : Nat) : Option (NodePattern PropertyMap) :=
  match items[i]? with
  | some (.node descriptor) => some descriptor
  | _ => none

/-- Each relationship has a type and a node directly behind it. -/
def JoinsTyped (items : PatternElement PropertyMap) : Prop :=
  ∀ i descriptor, items[i]? = some (.relationship descriptor) →
    descriptor.type.isSome ∧ (nodeAt? items (i + 1)).isSome

/-- The chain starts with a node, and its relationships are complete. -/
structure CanBeMade (element : PatternElement PropertyMap) : Prop where
  startsWithNode : (nodeAt? element 0).isSome
  joinsTyped : JoinsTyped element

theorem joinsTyped_nil : JoinsTyped [] := by
  intro i descriptor h
  simp at h

theorem joinsTyped_cons_node {descriptor : NodePattern PropertyMap} :
    JoinsTyped (.node descriptor :: items) ↔ JoinsTyped items := by
  constructor
  · intro h i other hother
    exact h (i + 1) other hother
  · intro h i other hother
    cases i with
    | zero => simp at hother
    | succ i => exact h i other hother

theorem joinsTyped_cons_relationship {descriptor : RelationshipPattern PropertyMap} :
    JoinsTyped (.relationship descriptor :: items)
      ↔ descriptor.type.isSome ∧ (nodeAt? items 0).isSome ∧ JoinsTyped items := by
  constructor
  · intro h
    obtain ⟨htype, hnode⟩ := h 0 descriptor rfl
    exact ⟨htype, hnode, fun i other hother => h (i + 1) other hother⟩
  · rintro ⟨htype, hnode, h⟩ i other hother
    cases i with
    | zero =>
      obtain rfl : descriptor = other := by simpa using hother
      exact ⟨htype, hnode⟩
    | succ i => exact h i other hother

theorem stepsError?_eq_none_iff : stepsError? items = none ↔ JoinsTyped items := by
  induction items with
  | nil => simp [stepsError?, joinsTyped_nil]
  | cons item rest ih =>
    cases item with
    | node descriptor => rw [stepsError?, joinsTyped_cons_node, ih]
    | relationship descriptor =>
      rw [joinsTyped_cons_relationship, ← ih]
      -- only a node may come next
      cases rest with
      | nil => cases htype : descriptor.type <;> simp [stepsError?, nodeAt?, htype]
      | cons next rest =>
        cases next <;> cases htype : descriptor.type <;> simp [stepsError?, nodeAt?, htype]

theorem elementError?_eq_none_iff : elementError? element = none ↔ CanBeMade element := by
  unfold elementError?
  split
  next descriptor rest =>
    rw [stepsError?_eq_none_iff]
    exact ⟨fun h => ⟨rfl, h⟩, CanBeMade.joinsTyped⟩
  next hnot =>
    refine ⟨fun h => absurd h (by simp), fun h => ?_⟩
    have hfirst := h.startsWithNode
    cases element with
    | nil => simp [nodeAt?] at hfirst
    | cons item rest =>
      cases item with
      | node descriptor => exact absurd rfl (hnot descriptor rest)
      | relationship descriptor => simp [nodeAt?] at hfirst

/-- **The check passes exactly the patterns that can be made.** -/
theorem error?_eq_none_iff {pattern : GraphPattern} :
    error? pattern = none ↔ ∀ element ∈ pattern, CanBeMade element := by
  simp only [error?, List.findSome?_eq_none_iff, elementError?_eq_none_iff]

end

/-! ## §2. Nodes. -/

/-- Is it a node descriptor with this variable? -/
def isNodeNamed (var : String) : PatternItem PropertyMap → Bool
  | .node descriptor => descriptor.var == some var
  | .relationship _ => false

/-- Where a variable is first given to a node; past the end if nowhere. -/
def firstNamed (items : PatternElement PropertyMap) (var : String) : Nat :=
  items.findIdx (isNodeNamed var)

/-- The first position that stands for the same node. -/
def origin (items : PatternElement PropertyMap) (i : Nat) : Nat :=
  match (nodeAt? items i).bind NodePattern.var with
  | some var => firstNamed items var
  | none => i

/-- The descriptor of a node position that is its own origin. -/
def founder? (items : PatternElement PropertyMap) (i : Nat) : Option (NodePattern PropertyMap) :=
  if origin items i = i then nodeAt? items i else none

/-- Descriptors of the nodes that the first `n` positions found, in order. -/
def founders (items : PatternElement PropertyMap) (n : Nat) : List (NodePattern PropertyMap) :=
  (List.range n).filterMap (founder? items)

/-- The id of the node of a position. -/
def nodeId (items : PatternElement PropertyMap) (first : NodeId) (i : Nat) : NodeId :=
  first + (founders items (origin items i)).length

/-- The nodes that the first `n` positions found, numbered from `first`. -/
def plannedNodes (items : PatternElement PropertyMap) (first : NodeId) (n : Nat) : List Node :=
  ((founders items n).zipIdx first).map (fun (descriptor, id) =>
    ⟨id, SortedSet.ofList descriptor.label.toList, descriptor.properties⟩)

section

variable {items : PatternElement PropertyMap} {descriptor : NodePattern PropertyMap}
  {first : NodeId} {i j n : Nat}

theorem nodeAt?_eq_some_iff :
    nodeAt? items i = some descriptor ↔ items[i]? = some (.node descriptor) := by
  unfold nodeAt?
  split
  next found h => simp [h]
  next hnot => simpa using hnot descriptor

theorem founders_succ (items : PatternElement PropertyMap) (n : Nat) :
    founders items (n + 1) = founders items n ++ (founder? items n).toList := by
  unfold founders
  rw [List.range_succ, List.filterMap_append]
  cases h : founder? items n <;> simp [h]

theorem length_founders_mono (h : i ≤ j) :
    (founders items i).length ≤ (founders items j).length := by
  induction h with
  | refl => exact Nat.le_refl _
  | step h ih =>
    rw [founders_succ, List.length_append]
    omega

/-- A position counts for all behind it. -/
theorem length_founders_lt {found : NodePattern PropertyMap} (hi : founder? items i = some found)
    (h : i < j) : (founders items i).length < (founders items j).length := by
  have hstep : (founders items (i + 1)).length = (founders items i).length + 1 := by
    rw [founders_succ, hi, List.length_append]
    rfl
  have hrest : (founders items (i + 1)).length ≤ (founders items j).length :=
    length_founders_mono (Nat.succ_le_of_lt h)
  omega

theorem plannedNodes_succ (h : founder? items n = some descriptor) :
    plannedNodes items first (n + 1) = plannedNodes items first n
      ++ [⟨first + (founders items n).length, SortedSet.ofList descriptor.label.toList,
        descriptor.properties⟩] := by
  simp [plannedNodes, founders_succ, h, List.zipIdx_append]

theorem length_plannedNodes : (plannedNodes items first n).length = (founders items n).length := by
  simp [plannedNodes]

theorem isNodeNamed_of_nodeAt? {var : String} (hat : nodeAt? items i = some descriptor)
    (hlt : i < items.length) :
    isNodeNamed var items[i] = (descriptor.var == some var) := by
  have hitem : items[i] = .node descriptor := by
    have := nodeAt?_eq_some_iff.1 hat
    rwa [List.getElem?_eq_getElem hlt, Option.some.injEq] at this
  rw [hitem]
  rfl

theorem lt_length_of_nodeAt? (hat : nodeAt? items i = some descriptor) : i < items.length := by
  have := nodeAt?_eq_some_iff.1 hat
  exact (List.getElem?_eq_some_iff.1 this).1

/-- A variable is given to a node where it is first given to one. -/
theorem nodeAt?_firstNamed {var : String} (h : firstNamed items var < items.length) :
    ∃ found, nodeAt? items (firstNamed items var) = some found ∧ found.var = some var := by
  have hnamed : isNodeNamed var (items[firstNamed items var]) = true :=
    List.findIdx_getElem
  cases hitem : items[firstNamed items var] with
  | relationship other =>
    rw [hitem] at hnamed
    simp [isNodeNamed] at hnamed
  | node found =>
    rw [hitem] at hnamed
    refine ⟨found, ?_, by simpa [isNodeNamed] using hnamed⟩
    rw [nodeAt?_eq_some_iff, List.getElem?_eq_getElem h, hitem]

theorem firstNamed_le {var : String} (hat : nodeAt? items i = some descriptor)
    (hvar : descriptor.var = some var) : firstNamed items var ≤ i := by
  have hlt := lt_length_of_nodeAt? hat
  refine Nat.le_of_not_lt (fun hbefore => ?_)
  have hnot : isNodeNamed var items[i] = false := List.not_of_lt_findIdx hbefore
  rw [isNodeNamed_of_nodeAt? hat hlt, hvar] at hnot
  simp at hnot

theorem origin_of_anonymous (hat : nodeAt? items i = some descriptor)
    (hvar : descriptor.var = none) : origin items i = i := by
  simp [origin, hat, hvar]

theorem origin_of_named {var : String} (hat : nodeAt? items i = some descriptor)
    (hvar : descriptor.var = some var) : origin items i = firstNamed items var := by
  simp [origin, hat, hvar]

theorem origin_le (hat : nodeAt? items i = some descriptor) : origin items i ≤ i := by
  cases hvar : descriptor.var with
  | none => exact Nat.le_of_eq (origin_of_anonymous hat hvar)
  | some var =>
    rw [origin_of_named hat hvar]
    exact firstNamed_le hat hvar

/-- An origin has the variable of the position, if any, and is its own
origin. -/
theorem nodeAt?_origin (hat : nodeAt? items i = some descriptor) :
    ∃ found, nodeAt? items (origin items i) = some found ∧ found.var = descriptor.var
      ∧ origin items (origin items i) = origin items i := by
  cases hvar : descriptor.var with
  | none =>
    have heq := origin_of_anonymous hat hvar
    exact ⟨descriptor, heq.symm ▸ hat, hvar, congrArg (origin items) heq⟩
  | some var =>
    have hlt : firstNamed items var < items.length :=
      Nat.lt_of_le_of_lt (firstNamed_le hat hvar) (lt_length_of_nodeAt? hat)
    obtain ⟨found, hfound, hnamed⟩ := nodeAt?_firstNamed hlt
    rw [origin_of_named hat hvar]
    exact ⟨found, hfound, hnamed, origin_of_named hfound hnamed⟩

theorem founder?_origin (hat : nodeAt? items i = some descriptor) :
    ∃ found, founder? items (origin items i) = some found := by
  obtain ⟨found, hfound, -, hself⟩ := nodeAt?_origin hat
  exact ⟨found, by rw [founder?, if_pos hself, hfound]⟩

theorem nodeId_eq_iff_origin_eq {other : NodePattern PropertyMap}
    (hi : nodeAt? items i = some descriptor) (hj : nodeAt? items j = some other) :
    nodeId items first i = nodeId items first j ↔ origin items i = origin items j := by
  obtain ⟨found, hfound⟩ := founder?_origin hi
  obtain ⟨found', hfound'⟩ := founder?_origin hj
  refine ⟨fun h => ?_, fun h => by rw [nodeId, nodeId, h]⟩
  have hlength := Nat.add_left_cancel h
  -- of two different origins the earlier one counts for the later one
  rcases Nat.lt_trichotomy (origin items i) (origin items j) with hlt | heq | hgt
  · have := length_founders_lt hfound hlt
    omega
  · exact heq
  · have := length_founders_lt hfound' hgt
    omega

/-- **One node for each anonymous position and each variable.** -/
theorem nodeId_eq_iff {other : NodePattern PropertyMap} (hi : nodeAt? items i = some descriptor)
    (hj : nodeAt? items j = some other) :
    nodeId items first i = nodeId items first j
      ↔ i = j ∨ ∃ var, descriptor.var = some var ∧ other.var = some var := by
  rw [nodeId_eq_iff_origin_eq hi hj]
  constructor
  · intro h
    obtain ⟨found, hfound, hvar, -⟩ := nodeAt?_origin hi
    obtain ⟨found', hfound', hvar', -⟩ := nodeAt?_origin hj
    rw [← h, hfound, Option.some.injEq] at hfound'
    have hsame : descriptor.var = other.var := by rw [← hvar, ← hvar', hfound']
    cases hnamed : other.var with
    | none =>
      rw [hnamed] at hsame
      rw [origin_of_anonymous hi hsame, origin_of_anonymous hj hnamed] at h
      exact .inl h
    | some var => exact .inr ⟨var, hsame.trans hnamed, rfl⟩
  · rintro (rfl | ⟨var, hvar, hvar'⟩)
    · rfl
    · rw [origin_of_named hi hvar, origin_of_named hj hvar']

end

/-! ## §3. Relationships. -/

/-- The relationship of a position, but for its id: from the node before to
the node behind. -/
def join? (items : PatternElement PropertyMap) (first : NodeId) (i : Nat) :
    Option (RelationshipId → Relationship) :=
  match items[i]? with
  | some (.relationship descriptor) => descriptor.type.map (fun type id =>
    ⟨id, type, nodeId items first (i - 1), nodeId items first (i + 1), descriptor.properties⟩)
  | _ => none

/-- The relationships that the first `n` positions ask for, in order. -/
def joins (items : PatternElement PropertyMap) (first : NodeId) (n : Nat) :
    List (RelationshipId → Relationship) :=
  (List.range n).filterMap (join? items first)

/-- These relationships, numbered from `firstRelationship`. -/
def plannedRelationships (items : PatternElement PropertyMap) (first : NodeId)
    (firstRelationship : RelationshipId) (n : Nat) : List Relationship :=
  ((joins items first n).zipIdx firstRelationship).map (fun (join, id) => join id)

section

variable {items : PatternElement PropertyMap} {first : NodeId}
  {firstRelationship : RelationshipId} {n : Nat}

theorem joins_succ (items : PatternElement PropertyMap) (first : NodeId) (n : Nat) :
    joins items first (n + 1) = joins items first n ++ (join? items first n).toList := by
  unfold joins
  rw [List.range_succ, List.filterMap_append]
  cases h : join? items first n <;> simp [h]

theorem length_joins_mono {i j : Nat} (h : i ≤ j) :
    (joins items first i).length ≤ (joins items first j).length := by
  induction h with
  | refl => exact Nat.le_refl _
  | step h ih =>
    rw [joins_succ, List.length_append]
    omega

theorem length_joins_lt {join : RelationshipId → Relationship} {i j : Nat}
    (hi : join? items first i = some join) (h : i < j) :
    (joins items first i).length < (joins items first j).length := by
  have hstep : (joins items first (i + 1)).length = (joins items first i).length + 1 := by
    rw [joins_succ, hi, List.length_append]
    rfl
  have hrest : (joins items first (i + 1)).length ≤ (joins items first j).length :=
    length_joins_mono (Nat.succ_le_of_lt h)
  omega

theorem plannedRelationships_succ {join : RelationshipId → Relationship}
    (h : join? items first n = some join) :
    plannedRelationships items first firstRelationship (n + 1)
      = plannedRelationships items first firstRelationship n
        ++ [join (firstRelationship + (joins items first n).length)] := by
  simp [plannedRelationships, joins_succ, h, List.zipIdx_append]

theorem length_plannedRelationships :
    (plannedRelationships items first firstRelationship n).length
      = (joins items first n).length := by
  simp [plannedRelationships]

end

/-- There are ids left for all that a chain asks for. -/
structure Room (store : Store) (items : PatternElement PropertyMap) : Prop where
  nodes : store.nextNodeId + (founders items items.length).length < UInt64.size
  relationships : store.nextRelationshipId
    + (joins items store.nextNodeId items.length).length < UInt64.size

instance (store : Store) (items : PatternElement PropertyMap) : Decidable (Room store items) :=
  decidable_of_iff (store.nextNodeId + (founders items items.length).length < UInt64.size
      ∧ store.nextRelationshipId + (joins items store.nextNodeId items.length).length
        < UInt64.size)
    ⟨fun ⟨hnodes, hrelationships⟩ => ⟨hnodes, hrelationships⟩,
      fun h => ⟨h.nodes, h.relationships⟩⟩

/-- All nodes a pattern asks for, under the next ids of a store. -/
def newNodes (store : Store) (pattern : GraphPattern) : List Node :=
  plannedNodes pattern.flatten store.nextNodeId pattern.flatten.length

/-- All relationships a pattern asks for, under the next ids of a store. -/
def newRelationships (store : Store) (pattern : GraphPattern) : List Relationship :=
  plannedRelationships pattern.flatten store.nextNodeId store.nextRelationshipId
    pattern.flatten.length

end PropertyGraph.Creation
