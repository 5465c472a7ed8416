/-
  PropertyGraph.Proofs.Search.Assignment
  ──────────────────────────────────────
  **WHAT A PATTERN ASKS FOR.**

  An assignment gives an entity to every position of every chain of a
  pattern.  `Admissible` says when it answers the pattern, without a word
  about how one would look for it: labels, types and properties fit,
  relationships join the nodes on either side of them, a variable means one
  entity throughout, and the condition holds wherever its variable stands.

  `bindingsOf` is the solution that an assignment stands for, and `idsOf`
  the list by which assignments are put into order.
-/
import PropertyGraph.Proofs.Search.Join
import PropertyGraph.Search.Pattern

namespace PropertyGraph.Search

open PropertyGraph.Query

/-! ## §1. One position. -/

/-- The entity is one of the store, as it is there now. -/
def InStore (store : Store) : Entity → Prop
  | .node n => store.node? n.id = some n
  | .relationship r => store.relationship? r.id = some r

/-- The entity has a property with a value alike. -/
def HasProperty (entity : Entity) (key : String) (expected : Value) : Prop :=
  ∃ actual, entity.property? key = some actual ∧ actual.alike expected = true

/-- The entity has every required property. -/
def HasRequired (required : PropertyMap) (entity : Entity) : Prop :=
  ∀ key expected, required.find? key = some expected → HasProperty entity key expected

/-- The entity is of the kind, the label or type, and the properties that a
position asks for. -/
def Fits : PatternItem PropertyMap → Entity → Prop
  | .node descriptor, .node n =>
    (∀ label, descriptor.label = some label → n.hasLabel label = true)
      ∧ HasRequired descriptor.properties (.node n)
  | .relationship descriptor, .relationship r =>
    (∀ type, descriptor.type = some type → r.type = type)
      ∧ HasRequired descriptor.properties (.relationship r)
  | _, _ => False

/-- `entity` may stand right after `previous`, or at the beginning of a
chain. -/
def Follows : Option Entity → Entity → Prop
  | some (.node n), .relationship r => r.start = n.id
  | some (.relationship r), .node n => r.end = n.id
  | _, .node _ => True
  | _, .relationship _ => False

/-- The condition holds of an entity at this position, if it speaks about
its variable. -/
def Meets (condition : Option (Condition Value)) (item : PatternItem PropertyMap)
    (entity : Entity) : Prop :=
  ∀ c, condition = some c → item.var = some c.var → HasProperty entity c.key c.value

/-! ## §2. All positions. -/

/-- Each entity may stand after the one before it. -/
def Connected : Option Entity → List Entity → Prop
  | _, [] => True
  | previous, entity :: rest => Follows previous entity ∧ Connected (some entity) rest

/-- Every position of a pattern with the entity assigned to it. -/
def positions (pattern : GraphPattern) (assignment : List (List Entity)) :
    List (PatternItem PropertyMap × Entity) :=
  (List.zipWith List.zip pattern assignment).flatten

/-- Where positions share a variable they hold the same entity. -/
def Agreeing (left right : List (PatternItem PropertyMap × Entity)) : Prop :=
  ∀ p ∈ left, ∀ q ∈ right, ∀ var, p.1.var = some var → q.1.var = some var →
    p.2.identity = q.2.identity

/-- **The assignment answers the pattern.**  A pattern without chains, or
with a chain without positions, has no answer. -/
structure Admissible (store : Store) (condition : Option (Condition Value))
    (pattern : GraphPattern) (assignment : List (List Entity)) : Prop where
  nonempty : pattern ≠ [] ∧ ∀ element ∈ pattern, element ≠ []
  lengths : assignment.map List.length = pattern.map List.length
  inStore : ∀ p ∈ positions pattern assignment, InStore store p.2
  fits : ∀ p ∈ positions pattern assignment, Fits p.1 p.2
  connected : ∀ chain ∈ assignment, Connected none chain
  agreeing : Agreeing (positions pattern assignment) (positions pattern assignment)
  meets : ∀ p ∈ positions pattern assignment, Meets condition p.1 p.2

/-! ## §3. Solutions and their order. -/

/-- The number that an entity has among those of its kind. -/
def numberOf (entity : Entity) : Nat :=
  match entity.identity with
  | .node id => id
  | .relationship id => id

/-- The ids of an assignment, position by position. -/
def idsOf (assignment : List (List Entity)) : List Nat := assignment.flatten.map numberOf

/-- The bindings with the entity at one more position. -/
def bindPosition (bindings : Bindings) (p : PatternItem PropertyMap × Entity) : Bindings :=
  match p.1.var with
  | none => bindings
  | some var => bindings.bind var p.2

/-- The bindings with the entities at several more positions. -/
def bindPositions (bindings : Bindings) (ps : List (PatternItem PropertyMap × Entity)) :
    Bindings :=
  ps.foldl bindPosition bindings

/-- The solution that an assignment stands for. -/
def bindingsOf (pattern : GraphPattern) (assignment : List (List Entity)) : Bindings :=
  bindPositions ∅ (positions pattern assignment)

/-! ## §4. Entities of one store. -/

variable {store : Store}

/-- In one store an identity belongs to one entity. -/
theorem eq_of_identity {e f : Entity} (he : InStore store e) (hf : InStore store f)
    (h : e.identity = f.identity) : e = f := by
  cases e with
  | node n =>
    cases f with
    | node m =>
      have hid : n.id = m.id := EntityRef.node.inj h
      have hn : store.node? n.id = some n := he
      have hm : store.node? m.id = some m := hf
      rw [hid, hm] at hn
      exact congrArg Entity.node (Option.some.inj hn).symm
    | relationship r => cases h
  | relationship r =>
    cases f with
    | node m => cases h
    | relationship s =>
      have hid : r.id = s.id := EntityRef.relationship.inj h
      have hr : store.relationship? r.id = some r := he
      have hs : store.relationship? s.id = some s := hf
      rw [hid, hs] at hr
      exact congrArg Entity.relationship (Option.some.inj hr).symm

theorem find?_bindPosition (bindings : Bindings) (p : PatternItem PropertyMap × Entity)
    (var : String) :
    (bindPosition bindings p).find? var
      = if p.1.var = some var then some p.2 else bindings.find? var := by
  unfold bindPosition
  cases hvar : p.1.var with
  | none => rfl
  | some bound =>
    show (bindings.bind bound p.2).find? var = _
    rw [Bindings.find?_bind]
    by_cases h : var = bound
    · rw [if_pos h, if_pos (congrArg some h.symm)]
    · rw [if_neg h, if_neg (fun heq => h (Option.some.inj heq).symm)]

/-- What positions bind a variable to, if they agree on it. -/
theorem find?_bindPositions {ps : List (PatternItem PropertyMap × Entity)} :
    ∀ {bindings : Bindings} {var : String} {entity : Entity},
      (∀ p ∈ ps, p.1.var = some var → p.2 = entity) →
      (∀ bound, bindings.find? var = some bound → bound = entity) →
      ((bindPositions bindings ps).find? var = some entity
        ↔ bindings.find? var = some entity ∨ ∃ p ∈ ps, p.1.var = some var) := by
  induction ps with
  | nil =>
    intro bindings var entity _ _
    exact ⟨.inl, fun h => h.elim id (fun ⟨_, hp, _⟩ => absurd hp List.not_mem_nil)⟩
  | cons p rest ih =>
    intro bindings var entity hps hbound
    have hfind := find?_bindPosition bindings p var
    by_cases hvar : p.1.var = some var
    · rw [if_pos hvar, hps p List.mem_cons_self hvar] at hfind
      have hnext := ih (fun q hq => hps q (List.mem_cons_of_mem p hq))
        (fun bound h => Option.some.inj (h.symm.trans hfind))
      exact ⟨fun _ => .inr ⟨p, List.mem_cons_self, hvar⟩, fun _ => hnext.2 (.inl hfind)⟩
    · rw [if_neg hvar] at hfind
      have hnext := ih (fun q hq => hps q (List.mem_cons_of_mem p hq))
        (fun bound h => hbound bound (hfind ▸ h))
      rw [hfind] at hnext
      refine hnext.trans (or_congr Iff.rfl ⟨fun ⟨q, hq, h⟩ => ?_, fun ⟨q, hq, h⟩ => ?_⟩)
      · exact ⟨q, List.mem_cons_of_mem p hq, h⟩
      · rcases List.mem_cons.1 hq with rfl | hq
        · exact absurd h hvar
        · exact ⟨q, hq, h⟩

end PropertyGraph.Search
