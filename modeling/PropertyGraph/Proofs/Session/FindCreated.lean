/-
  PropertyGraph.Proofs.Session.FindCreated
  ────────────────────────────────────────
  **MATCH FINDS WHAT CREATE MADE.**

  CREATE and MATCH read one pattern in two ways.  CREATE resolves variables
  through a table of the whole statement; MATCH binds them along each chain
  and joins the chains.  What brings the two together is the number of a
  position: CREATE makes one entity for each (`madeAt`), and these entities
  are an answer to the pattern (`admissible_made`), if the pattern does not
  ask for more than it says where something is made:

      a variable that occurs again is a node's, and asks for nothing there
      no property is a NaN, which would not be found by itself

  Every other answer has something new in it, or answered the pattern before.
-/
import PropertyGraph.Proofs.Search.Numbered
import PropertyGraph.Proofs.Search.Within
import PropertyGraph.Proofs.Session.Create
import PropertyGraph.Proofs.Value.Alike

namespace PropertyGraph

open PropertyGraph.Query

/-! ## §1. Patterns that describe what they make. -/

namespace Query.PatternItem

/-- Is it the position of a node? -/
def isNode {π : Type} : PatternItem π → Bool
  | .node _ => true
  | .relationship _ => false

/-- Does it ask for neither label nor type nor properties? -/
def isBare : PatternItem PropertyMap → Bool
  | .node descriptor => descriptor.label.isNone && descriptor.properties.entries.isEmpty
  | .relationship descriptor => descriptor.type.isNone && descriptor.properties.entries.isEmpty

/-- Have the two positions a variable, the same one? -/
def SharesVar {π : Type} (earlier later : PatternItem π) : Prop :=
  earlier.var.isSome ∧ earlier.var = later.var

instance {π : Type} (earlier later : PatternItem π) : Decidable (earlier.SharesVar later) :=
  inferInstanceAs (Decidable (_ ∧ _))

end Query.PatternItem

namespace Creation

/-- The pattern passes the check, and what is made of it fits it. -/
structure DescribesItself (pattern : GraphPattern) : Prop where
  nonempty : pattern ≠ []
  canBeMade : ∀ element ∈ pattern, CanBeMade element
  noNaN : ∀ item ∈ pattern.flatten, item.properties.NoNaN
  /-- A variable of a relationship occurs once, and is none of a node. -/
  nodesAgain : pattern.flatten.Pairwise (fun earlier later =>
    earlier.SharesVar later → earlier.isNode = true ∧ later.isNode = true)
  /-- Where a variable occurs again, nothing else is asked for. -/
  bareAgain : pattern.flatten.Pairwise (fun earlier later =>
    earlier.SharesVar later → later.isBare = true)

/-! ## §2. What is made at a position. -/

section

variable {items chain : PatternElement PropertyMap} {i j : Nat}

/-- A relationship that can be made has a node on either side. -/
theorem CanBeMade.between (h : CanBeMade chain) {descriptor : RelationshipPattern PropertyMap}
    (hat : chain[i]? = some (.relationship descriptor)) :
    ∃ j before behind type, i = j + 1 ∧ chain[j]? = some (.node before)
      ∧ chain[i + 1]? = some (.node behind) ∧ descriptor.type = some type := by
  obtain ⟨htype, hbehind⟩ := h.joinsTyped i descriptor hat
  obtain ⟨type, htype⟩ := Option.isSome_iff_exists.1 htype
  obtain ⟨behind, hbehind⟩ := Option.isSome_iff_exists.1 hbehind
  rw [nodeAt?_eq_some_iff] at hbehind
  cases i with
  | zero =>
    obtain ⟨first, hfirst⟩ := Option.isSome_iff_exists.1 h.startsWithNode
    rw [nodeAt?_eq_some_iff, hat] at hfirst
    cases hfirst
  | succ j =>
    have hlt : j < chain.length :=
      Nat.lt_of_succ_lt (List.getElem?_eq_some_iff.1 hat).1
    cases hitem : chain[j] with
    | node before =>
      exact ⟨j, before, behind, type, rfl, List.getElem?_eq_some_iff.2 ⟨hlt, hitem⟩, hbehind, htype⟩
    | relationship other =>
      -- another relationship before it would have no node behind it
      obtain ⟨-, hnode⟩ := h.joinsTyped j other (List.getElem?_eq_some_iff.2 ⟨hlt, hitem⟩)
      rw [nodeAt?, hat] at hnode
      cases hnode

/-- The node of a position, with the labels and properties of its founder. -/
def madeNode (items : PatternElement PropertyMap) (first : NodeId) (i : Nat) : Node :=
  let founder := (nodeAt? items (origin items i)).getD ⟨none, none, ∅⟩
  ⟨nodeId items first i, SortedSet.ofList founder.label.toList, founder.properties⟩

/-- The entity that CREATE makes at a position, or has made for its variable
at an earlier one. -/
def madeAt (store : Store) (items : PatternElement PropertyMap) (i : Nat) : Entity :=
  match join? items store.nextNodeId i with
  | some join =>
    .relationship (join (store.nextRelationshipId + (joins items store.nextNodeId i).length))
  | none => .node (madeNode items store.nextNodeId i)

theorem madeAt_node (store : Store) {descriptor : NodePattern PropertyMap}
    (hat : items[i]? = some (.node descriptor)) :
    madeAt store items i = .node (madeNode items store.nextNodeId i) := by
  have hjoin : join? items store.nextNodeId i = none := by rw [join?, hat]
  rw [madeAt, hjoin]

theorem join?_of_type {descriptor : RelationshipPattern PropertyMap} {type : RelationshipType}
    (hat : items[i]? = some (.relationship descriptor)) (htype : descriptor.type = some type)
    (first : NodeId) :
    join? items first i = some (fun id =>
      ⟨id, type, nodeId items first (i - 1), nodeId items first (i + 1),
        descriptor.properties⟩) := by
  rw [join?, hat]
  show descriptor.type.map _ = _
  rw [htype]
  rfl

theorem madeAt_relationship (store : Store) {descriptor : RelationshipPattern PropertyMap}
    {type : RelationshipType} (hat : items[i]? = some (.relationship descriptor))
    (htype : descriptor.type = some type) :
    madeAt store items i = .relationship
      ⟨store.nextRelationshipId + (joins items store.nextNodeId i).length, type,
        nodeId items store.nextNodeId (i - 1), nodeId items store.nextNodeId (i + 1),
        descriptor.properties⟩ := by
  rw [madeAt, join?_of_type hat htype]

/-! ## §3. It is one of the new entities. -/

/-- The entity is one of those that the pattern adds to the store. -/
def IsNew (store : Store) (pattern : GraphPattern) : Entity → Prop
  | .node node => node ∈ newNodes store pattern
  | .relationship r => r ∈ newRelationships store pattern

theorem mem_plannedNodes {first : NodeId} {descriptor : NodePattern PropertyMap}
    (h : founder? items i = some descriptor) : ∀ {n : Nat}, i < n →
    ⟨first + (founders items i).length, SortedSet.ofList descriptor.label.toList,
      descriptor.properties⟩ ∈ plannedNodes items first n := by
  intro n hlt
  -- it is planned at its own position, and kept by all later ones
  induction hlt with
  | refl =>
    rw [plannedNodes_succ h]
    exact List.mem_append_right _ List.mem_cons_self
  | @step n _ ih =>
    cases hn : founder? items n with
    | some other =>
      rw [plannedNodes_succ hn]
      exact List.mem_append_left _ ih
    | none =>
      have hsame : founders items (n + 1) = founders items n := by simp [founders_succ, hn]
      rw [plannedNodes, hsame]
      exact ih

/-- The relationship of a position comes after those of the positions before. -/
theorem getElem?_plannedRelationships {first : NodeId} {firstRelationship : RelationshipId}
    {join : RelationshipId → Relationship} (h : join? items first i = some join) :
    ∀ {n : Nat}, i < n →
      (plannedRelationships items first firstRelationship n)[(joins items first i).length]?
        = some (join (firstRelationship + (joins items first i).length)) := by
  intro n hlt
  induction hlt with
  | refl =>
    have hlength : (plannedRelationships items first firstRelationship i).length
        = (joins items first i).length := length_plannedRelationships
    rw [plannedRelationships_succ h, ← hlength, List.getElem?_concat_length, hlength]
  | @step n _ ih =>
    cases hn : join? items first n with
    | some other =>
      rw [plannedRelationships_succ hn, List.getElem?_append_left]
      · exact ih
      · exact (List.getElem?_eq_some_iff.1 ih).1
    | none =>
      have hsame : joins items first (n + 1) = joins items first n := by simp [joins_succ, hn]
      rw [plannedRelationships, hsame]
      exact ih

/-- The node of a position is the one its origin founds. -/
theorem madeNode_of_nodeAt? {descriptor : NodePattern PropertyMap}
    (hat : nodeAt? items i = some descriptor) (first : NodeId) :
    ∃ founder, founder? items (origin items i) = some founder
      ∧ madeNode items first i = ⟨first + (founders items (origin items i)).length,
          SortedSet.ofList founder.label.toList, founder.properties⟩ := by
  obtain ⟨founder, hfounder, -, hself⟩ := nodeAt?_origin hat
  refine ⟨founder, by rw [founder?, if_pos hself, hfounder], ?_⟩
  rw [madeNode, hfounder]
  rfl

/-- A relationship anywhere in the pattern has a type. -/
theorem type_of_getElem? {pattern : GraphPattern} (h : ∀ element ∈ pattern, CanBeMade element)
    {descriptor : RelationshipPattern PropertyMap}
    (hat : pattern.flatten[i]? = some (.relationship descriptor)) :
    ∃ type, descriptor.type = some type := by
  obtain ⟨chain, hchain, hitem⟩ := List.mem_flatten.1 (List.mem_of_getElem? hat)
  obtain ⟨j, hj⟩ := List.mem_iff_getElem?.1 hitem
  obtain ⟨-, -, -, type, -, -, -, htype⟩ := (h chain hchain).between hj
  exact ⟨type, htype⟩

/-- **Every position has a new entity.** -/
theorem isNew_madeAt {pattern : GraphPattern} (h : ∀ element ∈ pattern, CanBeMade element)
    (store : Store) {item : PatternItem PropertyMap} (hat : pattern.flatten[i]? = some item) :
    IsNew store pattern (madeAt store pattern.flatten i) := by
  have hlt : i < pattern.flatten.length := (List.getElem?_eq_some_iff.1 hat).1
  cases item with
  | node descriptor =>
    have hnode := nodeAt?_eq_some_iff.2 hat
    obtain ⟨founder, hfounder, hmade⟩ := madeNode_of_nodeAt? hnode store.nextNodeId
    rw [madeAt_node store hat]
    show madeNode _ _ _ ∈ newNodes store pattern
    rw [hmade]
    exact mem_plannedNodes hfounder (Nat.lt_of_le_of_lt (origin_le hnode) hlt)
  | relationship descriptor =>
    obtain ⟨type, htype⟩ := type_of_getElem? h hat
    rw [madeAt_relationship store hat htype]
    exact List.mem_of_getElem?
      (getElem?_plannedRelationships (join?_of_type hat htype store.nextNodeId) hlt)

/-! ## §4. It answers the pattern. -/

open Search

theorem of_pairwise {α : Type} {R : α → α → Prop} {list : List α} (h : list.Pairwise R) {a b : α}
    (ha : list[i]? = some a) (hb : list[j]? = some b) (hlt : i < j) : R a b := by
  obtain ⟨hi, rfl⟩ := List.getElem?_eq_some_iff.1 ha
  obtain ⟨hj, rfl⟩ := List.getElem?_eq_some_iff.1 hb
  exact List.pairwise_iff_getElem.1 h i j hi hj hlt

/-- What has just these properties has them as required, but for a NaN. -/
theorem hasRequired_self {properties : PropertyMap} (h : properties.NoNaN) {entity : Entity}
    (hentity : ∀ key, entity.property? key = properties.find? key) :
    HasRequired properties entity := by
  intro key expected hfind
  exact ⟨expected, (hentity key).trans hfind, PropertyMap.alike_of_find? h hfind⟩

theorem fits_of_isBare {descriptor : NodePattern PropertyMap}
    (h : (PatternItem.node descriptor).isBare = true) (node : Node) :
    Fits (.node descriptor) (.node node) := by
  obtain ⟨hlabel, hproperties⟩ := Bool.and_eq_true_iff.1 h
  constructor
  · intro label hsome
    rw [hsome] at hlabel
    cases hlabel
  · intro key expected hfind
    unfold PropertyMap.find? at hfind
    rw [List.isEmpty_iff.1 hproperties] at hfind
    cases hfind

variable {pattern : GraphPattern} {item other : PatternItem PropertyMap}

/-- **What is made at a position fits it.** -/
theorem DescribesItself.fits (h : DescribesItself pattern) (store : Store)
    (hat : pattern.flatten[i]? = some item) :
    Fits item (madeAt store pattern.flatten i) := by
  have hnoNaN := h.noNaN item (List.mem_of_getElem? hat)
  cases item with
  | relationship descriptor =>
    obtain ⟨type, htype⟩ := type_of_getElem? h.canBeMade hat
    rw [madeAt_relationship store hat htype]
    exact ⟨fun asked hasked => Option.some.inj (htype.symm.trans hasked),
      hasRequired_self hnoNaN (fun _ => rfl)⟩
  | node descriptor =>
    have hnode := nodeAt?_eq_some_iff.2 hat
    rw [madeAt_node store hat]
    by_cases horigin : origin pattern.flatten i = i
    · -- the position founds its node
      obtain ⟨founder, hfounder, hmade⟩ := madeNode_of_nodeAt? hnode store.nextNodeId
      rw [founder?, horigin, if_pos horigin, hnode] at hfounder
      obtain rfl := Option.some.inj hfounder
      rw [hmade]
      refine ⟨fun label hlabel => ?_, hasRequired_self hnoNaN (fun _ => rfl)⟩
      rw [Node.hasLabel_eq_true_iff, SortedSet.mem_toList_ofList, hlabel]
      exact List.mem_singleton_self label
    · -- its variable was given to a node before, so it asks for nothing
      obtain ⟨found, hfound, hvar, -⟩ := nodeAt?_origin hnode
      have hlt := Nat.lt_of_le_of_ne (origin_le hnode) horigin
      refine fits_of_isBare (of_pairwise h.bareAgain (nodeAt?_eq_some_iff.1 hfound) hat hlt ?_) _
      refine ⟨?_, hvar⟩
      show found.var.isSome = true
      cases hnamed : descriptor.var with
      | none => exact absurd (origin_of_anonymous hnode hnamed) horigin
      | some var =>
        rw [hvar, hnamed]
        rfl

/-- **Positions with one variable have one entity.** -/
theorem DescribesItself.agrees (h : DescribesItself pattern) (store : Store) {var : String}
    (hi : pattern.flatten[i]? = some item) (hj : pattern.flatten[j]? = some other)
    (hvar : item.var = some var) (hvar' : other.var = some var) :
    (madeAt store pattern.flatten i).identity = (madeAt store pattern.flatten j).identity := by
  by_cases heq : i = j
  · rw [heq]
  · have hshared : item.SharesVar other := ⟨hvar ▸ rfl, hvar.trans hvar'.symm⟩
    have hshared' : other.SharesVar item := ⟨hvar' ▸ rfl, hvar'.trans hvar.symm⟩
    -- only nodes share a variable, whichever of the two comes first
    have hnodes : item.isNode = true ∧ other.isNode = true := by
      rcases Nat.lt_or_gt_of_ne heq with hlt | hgt
      · exact of_pairwise h.nodesAgain hi hj hlt hshared
      · exact (of_pairwise h.nodesAgain hj hi hgt hshared').symm
    cases item with
    | relationship descriptor => cases hnodes.1
    | node descriptor =>
      cases other with
      | relationship descriptor => cases hnodes.2
      | node descriptor' =>
        rw [madeAt_node store hi, madeAt_node store hj]
        exact congrArg EntityRef.node ((nodeId_eq_iff (nodeAt?_eq_some_iff.2 hi)
          (nodeAt?_eq_some_iff.2 hj)).2 (.inr ⟨var, hvar, hvar'⟩))

/-- **Along a chain what is made is connected.**  The chain stands from
position `n` on. -/
theorem CanBeMade.connected (h : CanBeMade chain) (store : Store) {n : Nat}
    (hchain : ∀ i, i < chain.length → items[n + i]? = chain[i]?) :
    Connected none ((List.range' n chain.length).map (madeAt store items)) := by
  have hitem : ∀ {i item}, chain[i]? = some item → items[n + i]? = some item := fun hat =>
    (hchain _ (List.getElem?_eq_some_iff.1 hat).1).trans hat
  apply connected_map_range'
  · -- a chain starts with a node, which needs nothing before it
    intro _
    obtain ⟨first, hfirst⟩ := Option.isSome_iff_exists.1 h.startsWithNode
    show Follows none (madeAt store items (n + 0))
    rw [madeAt_node store (hitem (nodeAt?_eq_some_iff.1 hfirst))]
    trivial
  · intro i hi
    obtain ⟨item, hat⟩ : ∃ item, chain[i]? = some item :=
      ⟨_, List.getElem?_eq_getElem (Nat.lt_of_succ_lt hi)⟩
    obtain ⟨next, hnext⟩ : ∃ next, chain[i + 1]? = some next := ⟨_, List.getElem?_eq_getElem hi⟩
    cases next with
    | relationship descriptor =>
      -- a node stands before it, from which the relationship starts
      obtain ⟨j, before, -, type, heq, hbefore, -, htype⟩ := h.between hnext
      obtain rfl := Nat.succ.inj heq
      rw [madeAt_node store (hitem hbefore), madeAt_relationship store (hitem hnext) htype]
      rfl
    | node behind =>
      rw [madeAt_node store (hitem hnext)]
      cases item with
      | node before =>
        rw [madeAt_node store (hitem hat)]
        trivial
      | relationship descriptor =>
        obtain ⟨-, -, -, type, -, -, -, htype⟩ := h.between hat
        rw [madeAt_relationship store (hitem hat) htype]
        rfl

/-! ## §5. The store afterwards. -/

section

variable {store after : Store}
  (hgrown : store.Extends after (newNodes store pattern) (newRelationships store pattern))
  (hafter : after.Integral)

include hgrown hafter

theorem inStore_of_isNew {entity : Entity} (h : IsNew store pattern entity) :
    InStore after entity := by
  cases entity with
  | node node =>
    rw [inStore_node_iff hafter, hgrown.allNodes]
    exact List.mem_append_right _ h
  | relationship r =>
    rw [inStore_relationship_iff hafter, hgrown.allRelationships]
    exact List.mem_append_right _ h

/-- Whatever is there afterwards was there before or is new. -/
theorem inStore_or_isNew (hstore : store.Integral) {entity : Entity} (h : InStore after entity) :
    InStore store entity ∨ IsNew store pattern entity := by
  cases entity with
  | node node =>
    rw [inStore_node_iff hafter, hgrown.allNodes] at h
    rw [inStore_node_iff hstore]
    exact List.mem_append.1 h
  | relationship r =>
    rw [inStore_relationship_iff hafter, hgrown.allRelationships] at h
    rw [inStore_relationship_iff hstore]
    exact List.mem_append.1 h

/-- **What is made answers the pattern.** -/
theorem DescribesItself.admissible_made (h : DescribesItself pattern) :
    Admissible after none pattern (numbered (madeAt store pattern.flatten) 0 pattern) := by
  have hposition : ∀ p ∈ positions pattern (numbered (madeAt store pattern.flatten) 0 pattern),
      ∃ i, pattern.flatten[i]? = some p.1 ∧ p.2 = madeAt store pattern.flatten i := by
    intro p hp
    obtain ⟨i, hat, hmade⟩ := mem_positions_numbered_iff.1 hp
    exact ⟨i, hat, Nat.zero_add i ▸ hmade⟩
  constructor
  · -- every chain starts with a node, so none is empty
    refine ⟨h.nonempty, fun element hmem heq => ?_⟩
    have hfirst := (h.canBeMade element hmem).startsWithNode
    rw [heq] at hfirst
    cases hfirst
  · exact lengths_numbered
  · intro p hp
    obtain ⟨i, hat, hmade⟩ := hposition p hp
    exact hmade ▸ inStore_of_isNew hgrown hafter (isNew_madeAt h.canBeMade store hat)
  · intro p hp
    obtain ⟨i, hat, hmade⟩ := hposition p hp
    exact hmade ▸ h.fits store hat
  · -- a chain stands somewhere in the pattern, with its positions in a row
    intro trail htrail
    obtain ⟨front, chain, back, hpattern, rfl⟩ := exists_of_mem_numbered htrail
    have hcan := h.canBeMade chain (hpattern ▸ List.mem_append_right _ List.mem_cons_self)
    refine hcan.connected store (fun i hi => ?_)
    rw [hpattern, Nat.zero_add, List.flatten_append, List.flatten_cons,
      List.getElem?_append_right (Nat.le_add_right _ _), Nat.add_sub_cancel_left,
      List.getElem?_append_left hi]
  · -- the variable may join any two positions, of one chain or of two
    intro p hp q hq var hpvar hqvar
    obtain ⟨i, hi, hmade⟩ := hposition p hp
    obtain ⟨j, hj, hmade'⟩ := hposition q hq
    rw [hmade, hmade']
    exact h.agrees store hi hj hpvar hqvar
  · exact fun _ _ _ hnone => nomatch hnone

/-- **An answer with nothing new in it** answered the pattern before. -/
theorem admissible_before_or_isNew (hstore : store.Integral) {assignment : List (List Entity)}
    (h : Admissible after none pattern assignment) :
    Admissible store none pattern assignment
      ∨ ∃ p ∈ positions pattern assignment, IsNew store pattern p.2 := by
  -- only the store of an answer matters, so old entities make an old answer
  by_cases hnew : ∃ p ∈ positions pattern assignment, IsNew store pattern p.2
  · exact .inr hnew
  · refine .inl (h.of_inStore (fun p hp => ?_))
    rcases inStore_or_isNew hgrown hafter hstore (h.inStore p hp) with hold | hisNew
    · exact hold
    · exact absurd ⟨p, hp, hisNew⟩ hnew

end

/-- The solution binds each variable to what CREATE made for it: a node
variable to the node it stands for in the table of the statement, and a
relationship variable to the new relationship of its position, which comes
after those of the positions before. -/
structure BindsMade (store : Store) (pattern : GraphPattern) (solution : Bindings) : Prop where
  nodes : ∀ (i : Nat) (descriptor : NodePattern PropertyMap) (var : String),
    pattern.flatten[i]? = some (.node descriptor) → descriptor.var = some var →
    ∃ node ∈ newNodes store pattern, solution.find? var = some (.node node)
      ∧ ((start store).elements pattern).1.vars.find? var = some node.id
  relationships : ∀ (i : Nat) (descriptor : RelationshipPattern PropertyMap) (var : String),
    pattern.flatten[i]? = some (.relationship descriptor) → descriptor.var = some var →
    ∃ r, (newRelationships store pattern)[(joins pattern.flatten store.nextNodeId i).length]?
        = some r
      ∧ solution.find? var = some (.relationship r)

/-- After the making a variable stands for the node of its positions. -/
theorem find?_vars_elements {store : Store} (hstore : store.Bounded)
    (hroom : Room store pattern.flatten) (h : ∀ element ∈ pattern, CanBeMade element) {descriptor : NodePattern PropertyMap}
    {var : String} (hat : pattern.flatten[i]? = some (.node descriptor))
    (hvar : descriptor.var = some var) :
    ((start store).elements pattern).1.vars.find? var
      = some (nodeId pattern.flatten store.nextNodeId i) := by
  obtain ⟨after, helements, hmade⟩ :=
    (made_start hstore hroom).elements h (List.drop_zero (l := pattern.flatten))
  have hnode := nodeAt?_eq_some_iff.2 hat
  have hlt : firstNamed pattern.flatten var < 0 + pattern.flatten.length := by
    rw [Nat.zero_add]
    exact Nat.lt_of_le_of_lt (firstNamed_le hnode hvar) (lt_length_of_nodeAt? hnode)
  rw [helements, hmade.vars, if_pos hlt, nodeId, origin_of_named hnode hvar]

theorem DescribesItself.bindsMade (h : DescribesItself pattern) {store after : Store}
    (hstore : store.Bounded) (hroom : Room store pattern.flatten)
    (hmade : Admissible after none pattern (numbered (madeAt store pattern.flatten) 0 pattern)) :
    BindsMade store pattern
      (bindingsOf pattern (numbered (madeAt store pattern.flatten) 0 pattern)) := by
  have hfind : ∀ {i item var}, pattern.flatten[i]? = some item → item.var = some var →
      (bindingsOf pattern (numbered (madeAt store pattern.flatten) 0 pattern)).find? var
        = some (madeAt store pattern.flatten i) := by
    intro i item var hat hvar
    refine hmade.find?_bindingsOf.2 ⟨(item, madeAt store pattern.flatten i), ?_, hvar, rfl⟩
    exact mem_positions_numbered_iff.2 ⟨i, hat, by rw [Nat.zero_add]⟩
  constructor
  · intro i descriptor var hat hvar
    have hbound := hfind hat hvar
    have hnew := isNew_madeAt h.canBeMade store hat
    rw [madeAt_node store hat] at hbound hnew
    exact ⟨_, hnew, hbound, find?_vars_elements hstore hroom h.canBeMade hat hvar⟩
  · intro i descriptor var hat hvar
    have hbound := hfind hat hvar
    obtain ⟨type, htype⟩ := type_of_getElem? h.canBeMade hat
    rw [madeAt_relationship store hat htype] at hbound
    exact ⟨_, getElem?_plannedRelationships (join?_of_type hat htype store.nextNodeId)
      (List.getElem?_eq_some_iff.1 hat).1, hbound⟩

end

end Creation

/-! ## §6. MATCH after CREATE. -/

namespace Session

open Creation Search

/-- **MATCH finds what CREATE made.**  After CREATE, whether or not the store
could be saved, one solution of the same pattern binds every variable to what
was made for it.  Any solution was one before, or has a new entity at some
position.  The ids of 64 bits have lasted and there are enough left. -/
theorem search_findsCreated (session : Session) (hstore : session.store.Reachable)
    (hids : session.store.IdsFit) (pattern : GraphPattern)
    (hroom : Room session.store pattern.flatten) (h : DescribesItself pattern) :
    ∃ after solutions, (session.create pattern).1.store = after
      ∧ session.store.Extends after (newNodes session.store pattern)
          (newRelationships session.store pattern)
      ∧ ((session.create pattern).1.search pattern none).2 = .ok (.found solutions)
      ∧ (∃ solution ∈ solutions, BindsMade session.store pattern solution)
      ∧ ∀ solution ∈ solutions, solution ∈ Search.pattern session.store none pattern
          ∨ ∃ assignment, Admissible after none pattern assignment
              ∧ bindingsOf pattern assignment = solution
              ∧ ∃ p ∈ positions pattern assignment, IsNew session.store pattern p.2 := by
  have hcoherent := hstore.coherent
  have hbounded := hcoherent.bounded hids
  obtain ⟨after, -, hkept, hgrown, hcreate⟩ := create_of_canBeMade hbounded hroom h.canBeMade
  have hafter : (session.create pattern).1.store = after := by
    rw [hcreate, store_saved, store_withStore]
  have hcoherent' : after.Coherent := hkept hcoherent
  have hmade := h.admissible_made hgrown hcoherent'.toIntegral
  refine ⟨after, Search.pattern after none pattern, hafter, hgrown, ?_, ?_, ?_⟩
  · rw [← hafter]
    rfl
  · exact ⟨_, (mem_pattern_iff hcoherent').2 ⟨_, hmade, rfl⟩,
      h.bindsMade hbounded hroom hmade⟩
  · intro solution hsolution
    obtain ⟨assignment, ha, rfl⟩ := (mem_pattern_iff hcoherent').1 hsolution
    rcases admissible_before_or_isNew hgrown hcoherent'.toIntegral hcoherent.toIntegral ha with
      hbefore | hnew
    · exact .inl ((mem_pattern_iff hcoherent).2 ⟨assignment, hbefore, rfl⟩)
    · exact .inr ⟨assignment, ha, rfl, hnew⟩

/-- `(a:A {k: 1})-[r:R]->(b), (a)-[s:S]->(b), ()` as chains. -/
def doubleChains : GraphPattern :=
  [[.node ⟨some "a", some "A", .ofList [("k", .int 1)]⟩, .relationship ⟨some "r", some "R", ∅⟩,
      .node ⟨some "b", none, ∅⟩],
    [.node ⟨some "a", none, ∅⟩, .relationship ⟨some "s", some "S", ∅⟩,
      .node ⟨some "b", none, ∅⟩],
    [.node ⟨none, none, ∅⟩]]

/-- One node, with a relationship to itself. -/
def selfRun : List StoreOperation :=
  [.createNode ["A"] ∅, .createRelationship "R" 1 1 ∅]

/-- A session in memory with the store of `selfRun`. -/
def selfSession : Session :=
  (start .inMemory .empty).withStore
    (Store.empty.run selfRun).2

/-- After `CREATE (a:A {k: 1})-[r:R]->(b), (a)-[s:S]->(b), ()` one solution of
the pattern has the nodes 2 and 3 with the relationships 2 and 3. -/
theorem search_findsCreated_doubleChains :
    selfSession.store.Reachable ∧ selfSession.store.IdsFit
      ∧ Room selfSession.store doubleChains.flatten ∧ DescribesItself doubleChains
      ∧ ∃ solutions, ((selfSession.create doubleChains).1.search doubleChains none).2
            = .ok (.found solutions)
          ∧ ∃ solution ∈ solutions,
              solution.find? "a"
                = some (.node ⟨2, .ofList ["A"], .ofList [("k", .int 1)]⟩)
              ∧ solution.find? "b" = some (.node ⟨3, ∅, ∅⟩)
              ∧ solution.find? "r" = some (.relationship ⟨2, "R", 2, 3, ∅⟩)
              ∧ solution.find? "s" = some (.relationship ⟨3, "S", 2, 3, ∅⟩) := by
  have hreach : selfSession.store.Reachable := ⟨selfRun, by decide +kernel, rfl⟩
  have hids : selfSession.store.IdsFit := by decide +kernel
  have hroom : Room selfSession.store doubleChains.flatten := by decide +kernel
  have hself : DescribesItself doubleChains := by
    constructor
    · exact List.cons_ne_nil _ _
    · exact error?_eq_none_iff.1 (by decide)
    · decide
    · decide
    · decide
  have hnodes : newNodes selfSession.store doubleChains
      = [⟨2, .ofList ["A"], .ofList [("k", .int 1)]⟩, ⟨3, ∅, ∅⟩, ⟨4, ∅, ∅⟩] := by
    rfl
  obtain ⟨after, solutions, -, -, hfound, ⟨solution, hmem, hbinds⟩, -⟩ :=
    search_findsCreated selfSession hreach hids doubleChains hroom hself
  refine ⟨hreach, hids, hroom, hself, solutions, hfound, solution, hmem, ?_, ?_, ?_, ?_⟩
  · obtain ⟨node, hnode, hbound, hid⟩ := hbinds.nodes 0 _ "a" rfl rfl
    rw [hnodes, List.mem_cons, List.mem_cons, List.mem_singleton] at hnode
    rcases hnode with rfl | rfl | rfl
    · exact hbound
    · cases hid
    · cases hid
  · obtain ⟨node, hnode, hbound, hid⟩ := hbinds.nodes 2 _ "b" rfl rfl
    rw [hnodes, List.mem_cons, List.mem_cons, List.mem_singleton] at hnode
    rcases hnode with rfl | rfl | rfl
    · cases hid
    · exact hbound
    · cases hid
  · obtain ⟨r, hr, hbound⟩ := hbinds.relationships 1 _ "r" rfl rfl
    cases hr
    exact hbound
  · obtain ⟨s, hs, hbound⟩ := hbinds.relationships 4 _ "s" rfl rfl
    cases hs
    exact hbound

end Session

end PropertyGraph
