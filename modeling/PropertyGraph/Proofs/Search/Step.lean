/-
  PropertyGraph.Proofs.Search.Step
  ────────────────────────────────
  **THE SEARCH AT ONE POSITION.**

  `steps` are the entities that a search accepts at a position, each with
  the bindings after it.  They are exactly those that the position asks for
  (`mem_steps_iff`), in the order of their ids (`pairwise_steps`).

  The narrow sources of candidates lose nothing: a bound variable and a
  label only leave out nodes that the position would refuse, and a
  relationship leads to the one node that may stand after it.
-/
import PropertyGraph.Proofs.Search.Assignment
import PropertyGraph.Proofs.Store.Reference

namespace PropertyGraph.Search

open PropertyGraph.Query

/-! ## §1. What a position accepts. -/

theorem hasProperty_iff {entity : Entity} {key : String} {expected : Value} :
    (match entity.property? key with
      | some actual => actual.alike expected
      | none => false) = true ↔ HasProperty entity key expected := by
  unfold HasProperty
  cases entity.property? key with
  | none =>
    constructor
    · intro h
      cases h
    · intro hex
      obtain ⟨_, h, _⟩ := hex
      cases h
  | some actual =>
    constructor
    · intro h
      exact ⟨actual, rfl, h⟩
    · intro hex
      obtain ⟨_, heq, h⟩ := hex
      exact Option.some.inj heq ▸ h

theorem hasProperties_iff {required : PropertyMap} {entity : Entity} :
    hasProperties required entity = true ↔ HasRequired required entity := by
  unfold hasProperties
  rw [List.all_eq_true]
  constructor
  · intro h key expected hfind
    exact hasProperty_iff.1
      (h (key, expected) ((SortedEntries.find?_eq_some_iff required.normal.1).1 hfind))
  · intro h hex hmem
    obtain ⟨key, expected⟩ := hex
    exact hasProperty_iff.2
      (h key expected ((SortedEntries.find?_eq_some_iff required.normal.1).2 hmem))

theorem satisfies_iff {condition : Option (Condition Value)} {item : PatternItem PropertyMap}
    {var : String} {entity : Entity} (hvar : item.var = some var) :
    satisfies condition var entity = true ↔ Meets condition item entity := by
  unfold satisfies Meets
  cases condition with
  | none => exact ⟨fun _ _ h => (nomatch h), fun _ => rfl⟩
  | some c =>
    show (c.var != var || _) = true ↔ _
    rw [Bool.or_eq_true, hvar]
    refine (or_congr bne_iff_ne hasProperty_iff).trans ?_
    constructor
    · intro h c' hc hsame
      obtain rfl := Option.some.inj hc
      exact h.resolve_left (fun hne => hne (Option.some.inj hsame).symm)
    · intro h
      by_cases heq : c.var = var
      · exact .inr (h c rfl (congrArg some heq.symm))
      · exact .inl heq

/-- Every variable is bound to an entity of the store. -/
def BoundInStore (store : Store) (bindings : Bindings) : Prop :=
  ∀ var entity, bindings.find? var = some entity → InStore store entity

/-- The variable of a position is not bound to anything else. -/
def Free (bindings : Bindings) (item : PatternItem PropertyMap) (entity : Entity) : Prop :=
  ∀ var bound, item.var = some var → bindings.find? var = some bound → bound = entity

variable {store : Store} {condition : Option (Condition Value)}
  {item : PatternItem PropertyMap} {entity : Entity} {bindings bindings' : Bindings}

theorem BoundInStore.bindPosition (h : BoundInStore store bindings)
    (hentity : InStore store entity) :
    BoundInStore store (bindPosition bindings (item, entity)) := by
  intro var bound hfind
  rw [find?_bindPosition] at hfind
  split at hfind
  · exact Option.some.inj hfind ▸ hentity
  · exact h var bound hfind

/-- Binding a variable again to what it is bound to changes nothing. -/
theorem bindPosition_of_bound {var : String} (hvar : item.var = some var)
    (hbound : bindings.find? var = some entity) :
    bindPosition bindings (item, entity) = bindings := by
  apply Bindings.ext_find?
  intro sought
  rw [find?_bindPosition]
  split
  next h => rw [← Option.some.inj (hvar.symm.trans h), hbound]
  next => rfl

theorem bindChecked_eq_some_iff (hstore : BoundInStore store bindings)
    (hentity : InStore store entity) :
    bindChecked condition item.var entity bindings = some bindings'
      ↔ Meets condition item entity ∧ Free bindings item entity
        ∧ bindings' = bindPosition bindings (item, entity) := by
  unfold bindChecked
  cases hvar : item.var with
  -- without a variable there is nothing to check or to bind
  | none =>
    have hmeets : Meets condition item entity := fun c _ h => nomatch hvar.symm.trans h
    have hfree : Free bindings item entity := fun var bound h _ => nomatch hvar.symm.trans h
    have hbind : bindPosition bindings (item, entity) = bindings := by
      unfold bindPosition
      rw [hvar]
    rw [hbind]
    exact ⟨fun h => ⟨hmeets, hfree, (Option.some.inj h).symm⟩, fun ⟨_, _, h⟩ => h ▸ rfl⟩
  | some var =>
    show (if satisfies condition var entity = true then _ else none) = _ ↔ _
    have hbind : bindPosition bindings (item, entity) = bindings.bind var entity := by
      unfold bindPosition
      rw [hvar]
    by_cases hsat : satisfies condition var entity = true
    · have hmeets := (satisfies_iff hvar).1 hsat
      rw [if_pos hsat]
      cases hfind : bindings.find? var with
      | none =>
        have hfree : Free bindings item entity := fun v bound hv h => by
          rw [← Option.some.inj (hvar.symm.trans hv), hfind] at h
          cases h
        rw [hbind]
        exact ⟨fun h => ⟨hmeets, hfree, (Option.some.inj h).symm⟩, fun ⟨_, _, h⟩ => h ▸ rfl⟩
      | some bound =>
        show (if bound.identity = entity.identity then some bindings else none) = _ ↔ _
        by_cases hsame : bound.identity = entity.identity
        · have heq : bound = entity := eq_of_identity (hstore var bound hfind) hentity hsame
          have hfree : Free bindings item entity := fun v other hv h => by
            rw [← Option.some.inj (hvar.symm.trans hv), hfind] at h
            exact (Option.some.inj h).symm.trans heq
          rw [if_pos hsame, bindPosition_of_bound hvar (heq ▸ hfind)]
          exact ⟨fun h => ⟨hmeets, hfree, (Option.some.inj h).symm⟩, fun ⟨_, _, h⟩ => h ▸ rfl⟩
        · rw [if_neg hsame]
          refine ⟨fun h => (nomatch h), fun ⟨_, hfree, _⟩ => ?_⟩
          exact absurd (congrArg Entity.identity (hfree var bound hvar hfind)) hsame
    · rw [if_neg hsat]
      exact ⟨fun h => (nomatch h), fun ⟨hmeets, _⟩ => absurd ((satisfies_iff hvar).2 hmeets) hsat⟩

theorem acceptNode_eq_some_iff {descriptor : NodePattern PropertyMap} {node : Node}
    (hstore : BoundInStore store bindings) (hnode : InStore store (.node node)) :
    acceptNode condition descriptor node bindings = some bindings'
      ↔ Fits (.node descriptor) (.node node) ∧ Meets condition (.node descriptor) (.node node)
        ∧ Free bindings (.node descriptor) (.node node)
        ∧ bindings' = bindPosition bindings (.node descriptor, .node node) := by
  have hfits : (descriptor.label.all node.hasLabel
      && hasProperties descriptor.properties (.node node)) = true
      ↔ Fits (.node descriptor) (.node node) := by
    rw [Bool.and_eq_true, hasProperties_iff, Option.all_eq_true]
    exact Iff.rfl
  unfold acceptNode
  by_cases h : Fits (.node descriptor) (.node node)
  · rw [if_pos (hfits.2 h), show descriptor.var = (PatternItem.node descriptor).var from rfl,
      bindChecked_eq_some_iff hstore hnode]
    exact (and_iff_right h).symm
  · rw [if_neg (fun heq => h (hfits.1 heq))]
    exact ⟨fun heq => (nomatch heq), fun heq => absurd heq.1 h⟩

theorem acceptRelationship_eq_some_iff {descriptor : RelationshipPattern PropertyMap}
    {r : Relationship} (hstore : BoundInStore store bindings)
    (hr : InStore store (.relationship r)) :
    acceptRelationship condition descriptor r bindings = some bindings'
      ↔ Fits (.relationship descriptor) (.relationship r)
        ∧ Meets condition (.relationship descriptor) (.relationship r)
        ∧ Free bindings (.relationship descriptor) (.relationship r)
        ∧ bindings' = bindPosition bindings (.relationship descriptor, .relationship r) := by
  have hfits : (descriptor.type.all (r.type == ·)
      && hasProperties descriptor.properties (.relationship r)) = true
      ↔ Fits (.relationship descriptor) (.relationship r) := by
    rw [Bool.and_eq_true, hasProperties_iff, Option.all_eq_true]
    simp only [beq_iff_eq]
    exact Iff.rfl
  unfold acceptRelationship
  by_cases h : Fits (.relationship descriptor) (.relationship r)
  · rw [if_pos (hfits.2 h),
      show descriptor.var = (PatternItem.relationship descriptor).var from rfl,
      bindChecked_eq_some_iff hstore hr]
    exact (and_iff_right h).symm
  · rw [if_neg (fun heq => h (hfits.1 heq))]
    exact ⟨fun heq => (nomatch heq), fun heq => absurd heq.1 h⟩

/-! ## §2. What a position is offered. -/

/-- Where a search stands after an entity, or at the beginning. -/
def cursorAfter : Option Entity → Cursor
  | none => .start
  | some (.node n) => .node n.id
  | some (.relationship r) => .relationship r.end

/-- The node that a variable is bound to is the only one it may mean. -/
theorem eq_of_boundNode? {descriptor : NodePattern PropertyMap} {node : Node} {id : NodeId}
    (hfree : Free bindings (.node descriptor) (.node node))
    (hbound : boundNode? bindings descriptor.var = some id) : node.id = id := by
  unfold boundNode? at hbound
  cases hvar : descriptor.var with
  | none => rw [hvar] at hbound; cases hbound
  | some var =>
    rw [hvar, Option.bind_some] at hbound
    cases hfind : bindings.find? var with
    | none => rw [hfind] at hbound; cases hbound
    | some entity =>
      rw [hfind, hfree var entity hvar hfind] at hbound
      exact Option.some.inj hbound

theorem inStore_of_node? (hstore : store.Integral) {id : NodeId} {node : Node}
    (h : store.node? id = some node) : InStore store (.node node) := by
  show store.node? node.id = some node
  rw [hstore.node_id h]
  exact h

theorem mem_node?_toList (hstore : store.Integral) {id : NodeId} {node : Node} :
    node ∈ (store.node? id).toList ↔ InStore store (.node node) ∧ node.id = id := by
  rw [Option.mem_toList]
  constructor
  · intro h
    exact ⟨inStore_of_node? hstore h, hstore.node_id h⟩
  · intro hex
    obtain ⟨h, rfl⟩ := hex
    exact h

theorem inStore_of_mem_nodeCandidates (hstore : store.Coherent)
    {descriptor : NodePattern PropertyMap} {node : Node} {cursor : Cursor}
    (h : node ∈ nodeCandidates store descriptor cursor bindings) :
    InStore store (.node node) := by
  unfold nodeCandidates at h
  split at h
  · exact ((mem_node?_toList hstore.toIntegral).1 h).1
  all_goals
    split at h
    · exact ((mem_node?_toList hstore.toIntegral).1 h).1
    · split at h
      · rw [hstore.labelled_eq, List.mem_filter] at h
        exact hstore.mem_allNodes_iff.1 h.1
      · exact hstore.mem_allNodes_iff.1 h

/-- **A node that fits is offered** if and only if it may stand here. -/
theorem mem_nodeCandidates_iff (hstore : store.Coherent) {descriptor : NodePattern PropertyMap}
    {node : Node} {previous : Option Entity}
    (hfits : Fits (.node descriptor) (.node node))
    (hfree : Free bindings (.node descriptor) (.node node)) :
    node ∈ nodeCandidates store descriptor (cursorAfter previous) bindings
      ↔ InStore store (.node node) ∧ Follows previous (.node node) := by
  -- wherever candidates come from, a node that fits is among them
  have hsource : node ∈ nodeCandidates store descriptor (cursorAfter none) bindings
      ↔ InStore store (.node node) := by
    unfold nodeCandidates cursorAfter
    dsimp only
    split
    next id hbound =>
      exact (mem_node?_toList hstore.toIntegral).trans
        (and_iff_left (eq_of_boundNode? hfree hbound))
    next =>
      split
      next label hlabel =>
        rw [hstore.labelled_eq, List.mem_filter, hstore.mem_allNodes_iff]
        exact and_iff_left (hfits.1 label hlabel)
      next => exact hstore.mem_allNodes_iff
  cases previous with
  | none => exact hsource.trans (and_iff_left trivial).symm
  | some entity =>
    cases entity with
    | node n => exact hsource.trans (and_iff_left trivial).symm
    | relationship r =>
      show node ∈ (store.node? r.end).toList ↔ _ ∧ r.end = node.id
      rw [mem_node?_toList hstore.toIntegral, eq_comm]

/-- **A relationship is offered** if and only if it may stand here. -/
theorem mem_relationshipCandidates_iff (hstore : store.Coherent) {r : Relationship}
    {previous : Option Entity} :
    r ∈ relationshipCandidates store (cursorAfter previous)
      ↔ InStore store (.relationship r) ∧ Follows previous (.relationship r) := by
  cases previous with
  | none => exact ⟨fun h => absurd h List.not_mem_nil, fun h => h.2.elim⟩
  | some entity =>
    cases entity with
    | relationship s => exact ⟨fun h => absurd h List.not_mem_nil, fun h => h.2.elim⟩
    | node n =>
      show r ∈ store.leaving n.id ↔ _ ∧ r.start = n.id
      rw [hstore.leaving_eq, List.mem_filter]
      exact and_congr hstore.mem_allRelationships_iff beq_iff_eq

theorem pairwise_toList {α : Type} {relation : α → α → Prop} (found : Option α) :
    found.toList.Pairwise relation := by
  cases found with
  | none => exact List.Pairwise.nil
  | some value => exact List.pairwise_singleton relation value

theorem pairwise_nodeCandidates (hstore : store.Coherent)
    (descriptor : NodePattern PropertyMap) (cursor : Cursor) (bindings : Bindings) :
    (nodeCandidates store descriptor cursor bindings).Pairwise (fun m n => m.id < n.id) := by
  unfold nodeCandidates
  split
  · exact pairwise_toList _
  all_goals
    split
    · exact pairwise_toList _
    · split
      · exact hstore.looksUpInOrder.labelled _
      · exact hstore.pairwise_allNodes

theorem pairwise_relationshipCandidates (hstore : store.Coherent) (cursor : Cursor) :
    (relationshipCandidates store cursor).Pairwise (fun r s => r.id < s.id) := by
  cases cursor with
  | start => exact List.Pairwise.nil
  | relationship «end» => exact List.Pairwise.nil
  | node id => exact hstore.looksUpInOrder.leaving id

/-! ## §3. Steps. -/

/-- The entities accepted at a position, each with the bindings after it. -/
def steps (store : Store) (condition : Option (Condition Value))
    (item : PatternItem PropertyMap) (cursor : Cursor) (bindings : Bindings) :
    List (Entity × Bindings) :=
  match item with
  | .node descriptor =>
    (nodeCandidates store descriptor cursor bindings).filterMap (fun node =>
      (acceptNode condition descriptor node bindings).map (fun after => (.node node, after)))
  | .relationship descriptor =>
    (relationshipCandidates store cursor).filterMap (fun r =>
      (acceptRelationship condition descriptor r bindings).map
        (fun after => (.relationship r, after)))

/-- **What a position asks for is what the search accepts there.** -/
theorem mem_steps_iff (hstore : store.Coherent) (hbound : BoundInStore store bindings)
    {previous : Option Entity} {after : Bindings} :
    (entity, after) ∈ steps store condition item (cursorAfter previous) bindings
      ↔ InStore store entity ∧ Fits item entity ∧ Follows previous entity
        ∧ Meets condition item entity ∧ Free bindings item entity
        ∧ after = bindPosition bindings (item, entity) := by
  cases item with
  | node descriptor =>
    unfold steps
    rw [List.mem_filterMap]
    constructor
    · intro h
      obtain ⟨node, hmem, hstep⟩ := h
      obtain ⟨found, haccept, heq⟩ := Option.map_eq_some_iff.1 hstep
      obtain ⟨rfl, rfl⟩ := Prod.mk.inj heq
      -- what is accepted fits; what fits and was offered may stand here
      have hin := inStore_of_mem_nodeCandidates hstore hmem
      obtain ⟨hfits, hmeets, hfree, hafter⟩ := (acceptNode_eq_some_iff hbound hin).1 haccept
      obtain ⟨-, hfollows⟩ := (mem_nodeCandidates_iff hstore hfits hfree).1 hmem
      exact ⟨hin, hfits, hfollows, hmeets, hfree, hafter⟩
    · intro h
      obtain ⟨hin, hfits, hfollows, hmeets, hfree, hafter⟩ := h
      cases entity with
      | relationship r => exact hfits.elim
      | node node =>
        refine ⟨node, (mem_nodeCandidates_iff hstore hfits hfree).2 ⟨hin, hfollows⟩, ?_⟩
        rw [(acceptNode_eq_some_iff hbound hin).2 ⟨hfits, hmeets, hfree, hafter⟩]
        rfl
  | relationship descriptor =>
    unfold steps
    rw [List.mem_filterMap]
    constructor
    · intro h
      obtain ⟨r, hmem, hstep⟩ := h
      obtain ⟨found, haccept, heq⟩ := Option.map_eq_some_iff.1 hstep
      obtain ⟨rfl, rfl⟩ := Prod.mk.inj heq
      obtain ⟨hin, hfollows⟩ := (mem_relationshipCandidates_iff hstore).1 hmem
      obtain ⟨hfits, hmeets, hfree, hafter⟩ :=
        (acceptRelationship_eq_some_iff hbound hin).1 haccept
      exact ⟨hin, hfits, hfollows, hmeets, hfree, hafter⟩
    · intro h
      obtain ⟨hin, hfits, hfollows, hmeets, hfree, hafter⟩ := h
      cases entity with
      | node node => exact hfits.elim
      | relationship r =>
        refine ⟨r, (mem_relationshipCandidates_iff hstore).2 ⟨hin, hfollows⟩, ?_⟩
        rw [(acceptRelationship_eq_some_iff hbound hin).2 ⟨hfits, hmeets, hfree, hafter⟩]
        rfl

/-- Steps come in the order of their ids. -/
theorem pairwise_steps (hstore : store.Coherent) (condition : Option (Condition Value))
    (item : PatternItem PropertyMap) (cursor : Cursor) (bindings : Bindings) :
    (steps store condition item cursor bindings).Pairwise
      (fun s t => numberOf s.1 < numberOf t.1) := by
  cases item with
  | node descriptor =>
    refine (pairwise_nodeCandidates hstore descriptor cursor bindings).filterMap _ ?_
    intro m n hlt s hs t ht
    obtain ⟨_, _, rfl⟩ := Option.map_eq_some_iff.1 hs
    obtain ⟨_, _, rfl⟩ := Option.map_eq_some_iff.1 ht
    exact hlt
  | relationship descriptor =>
    refine (pairwise_relationshipCandidates hstore cursor).filterMap _ ?_
    intro r q hlt s hs t ht
    obtain ⟨_, _, rfl⟩ := Option.map_eq_some_iff.1 hs
    obtain ⟨_, _, rfl⟩ := Option.map_eq_some_iff.1 ht
    exact hlt

end PropertyGraph.Search
