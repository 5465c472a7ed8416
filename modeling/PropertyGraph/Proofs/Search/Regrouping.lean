/-
  PropertyGraph.Proofs.Search.Regrouping
  ──────────────────────────────────────
  **CHAINS IN ANY ORDER AND GROUPING.**

  Seen through identities a solution is a partial function, and the union of
  two solutions that agree is the union of their graphs.  So merging is
  associative and commutative up to snapshots, and to agree with a union is
  to agree with both of its sides.  Joins inherit this:

      join_assoc                   — the same solutions, place by place
      join_comm                    — the same solutions, in another order
      foldl_join_perm              — any number of lists from one store
      order_and_grouping           — for the chains of a pattern

  Solutions from one store that bind the same entities hold the same
  snapshots, and there the last two hold for the solutions themselves.
-/
import Mathlib.Data.List.Forall2
import Mathlib.Data.Multiset.Bind
import PropertyGraph.Proofs.Search.Condition

namespace PropertyGraph

/-! ## §1. Merging, seen through identities. -/

namespace Bindings

/-- Which entity a variable means, if it is bound. -/
def identity? (bindings : Bindings) (var : String) : Option EntityRef :=
  (bindings.find? var).map Entity.identity

variable {left middle right : Bindings}

theorem same_iff : left.same right = true ↔ ∀ var, left.identity? var = right.identity? var := by
  have hfind : ∀ (b : Bindings) var,
      (b.entries.mapValues Entity.identity).find? var = b.identity? var :=
    fun b var => SortedMap.find?_mapValues Entity.identity b.entries var
  unfold same
  rw [beq_iff_eq]
  constructor
  · intro h var
    have hmaps : left.entries.mapValues Entity.identity
        = right.entries.mapValues Entity.identity := by
      unfold SortedMap.mapValues
      congr 1
    rw [← hfind, ← hfind, hmaps]
  · intro h
    have hmaps : left.entries.mapValues Entity.identity
        = right.entries.mapValues Entity.identity := by
      refine SortedMap.ext_find? (fun var => ?_)
      rw [hfind, hfind, h]
    exact congrArg SortedMap.entries hmaps

theorem agrees_iff_identity? :
    left.agrees right = true
      ↔ ∀ var i j, left.identity? var = some i → right.identity? var = some j → i = j := by
  rw [agrees_iff]
  constructor
  · intro h var i j hi hj
    obtain ⟨e, he, rfl⟩ := Option.map_eq_some_iff.1 hi
    obtain ⟨f, hf, rfl⟩ := Option.map_eq_some_iff.1 hj
    exact h var e f he hf
  · intro h var e f he hf
    exact h var e.identity f.identity (Option.map_eq_some_iff.2 ⟨e, he, rfl⟩)
      (Option.map_eq_some_iff.2 ⟨f, hf, rfl⟩)

theorem agrees_comm (left right : Bindings) : left.agrees right = right.agrees left := by
  rw [Bool.eq_iff_iff, agrees_iff_identity?, agrees_iff_identity?]
  exact ⟨fun h var i j hi hj => (h var j i hj hi).symm,
    fun h var i j hi hj => (h var j i hj hi).symm⟩

/-- The identities of a union: it does not matter whose snapshots it keeps. -/
theorem identity?_union (h : left.agrees right = true) (var : String) :
    (left.union right).identity? var = (left.identity? var).or (right.identity? var) := by
  unfold identity?
  rw [find?_union_eq, held]
  cases hl : left.find? var with
  | none => simp
  | some e =>
    cases hr : right.find? var with
    | none => simp
    | some f =>
      have hsame : e.identity = f.identity := agrees_iff.1 h var e f hl hr
      split <;> simp [hsame]

/-- **To agree with a union is to agree with both sides.** -/
theorem agrees_union (h : left.agrees middle = true) (right : Bindings) :
    (left.union middle).agrees right = (left.agrees right && middle.agrees right) := by
  rw [Bool.eq_iff_iff, Bool.and_eq_true, agrees_iff_identity?, agrees_iff_identity?,
    agrees_iff_identity?]
  simp only [identity?_union h, Option.or_eq_some_iff]
  constructor
  · intro hunion
    refine ⟨fun var i k hi hk => hunion var i k (.inl hi) hk, fun var j k hj hk => ?_⟩
    cases hi : left.identity? var with
    | none => exact hunion var j k (.inr ⟨hi, hj⟩) hk
    | some i =>
      -- the union means what the left side means, and so does the middle one
      rw [← agrees_iff_identity?.1 h var i j hi hj]
      exact hunion var i k (.inl hi) hk
  · rintro ⟨hleft, hmiddle⟩ var i k (hi | ⟨-, hi⟩) hk
    · exact hleft var i k hi hk
    · exact hmiddle var i k hi hk

theorem same_union_comm (h : left.agrees right = true) :
    (left.union right).same (right.union left) = true := by
  rw [same_iff]
  intro var
  rw [identity?_union h, identity?_union ((agrees_comm right left).trans h)]
  cases hl : left.identity? var with
  | none => simp
  | some i =>
    cases hr : right.identity? var with
    | none => simp
    | some j => rw [agrees_iff_identity?.1 h var i j hl hr]

theorem same_union_assoc (hleft : left.agrees middle = true) (hright : middle.agrees right = true)
    (houter : left.agrees right = true) :
    ((left.union middle).union right).same (left.union (middle.union right)) = true := by
  have hl : (left.union middle).agrees right = true := by
    rw [agrees_union hleft, houter, hright]
    rfl
  have hr : left.agrees (middle.union right) = true := by
    rw [agrees_comm, agrees_union hright, agrees_comm middle, agrees_comm right, hleft, houter]
    rfl
  rw [same_iff]
  intro var
  rw [identity?_union hl, identity?_union hleft, identity?_union hr, identity?_union hright]
  exact Option.or_assoc

end Bindings

namespace Search

open PropertyGraph.Query

/-! ## §2. Joins of any lists. -/

/-- The union of two solutions, if they agree. -/
def pair (left right : Bindings) : List Bindings :=
  if left.agrees right then [left.union right] else []

theorem joinOne_eq_flatMap (left : Bindings) (right : List Bindings) :
    joinOne left right = right.flatMap (pair left) := by
  induction right with
  | nil => rfl
  | cons r rest ih =>
    rw [List.flatMap_cons, ← ih, pair, joinOne, List.filter_cons]
    split
    · rfl
    · rfl

theorem join_eq_flatMap (left right : List Bindings) :
    join left right = left.flatMap (fun l => right.flatMap (pair l)) := by
  rw [join_eq, nestedLoopJoin]
  exact congrArg left.flatMap (funext (fun l => joinOne_eq_flatMap l right))

/-- Place by place the same variables, bound to the same entities. -/
abbrev SameSolutions : List Bindings → List Bindings → Prop :=
  List.Forall₂ (fun left right => left.same right = true)

theorem SameSolutions.flatMap {α : Type} {items : List α} {f g : α → List Bindings}
    (h : ∀ item ∈ items, SameSolutions (f item) (g item)) :
    SameSolutions (items.flatMap f) (items.flatMap g) := by
  induction items with
  | nil => exact .nil
  | cons item rest ih =>
    obtain ⟨hitem, hrest⟩ := List.forall_mem_cons.1 h
    exact List.rel_append hitem (ih hrest)

theorem pair_comm (left right : Bindings) : SameSolutions (pair left right) (pair right left) := by
  unfold pair
  rw [Bindings.agrees_comm right left]
  split
  next h => exact .cons (Bindings.same_union_comm h) .nil
  next => exact .nil

/-- Three solutions have a union if any two of them agree, however they are
grouped. -/
theorem pair_assoc (left middle right : Bindings) :
    SameSolutions ((pair left middle).flatMap (fun l => pair l right))
      ((pair middle right).flatMap (pair left)) := by
  unfold pair
  cases hleft : left.agrees middle with
  | false =>
    cases hright : middle.agrees right with
    | false => exact .nil
    | true =>
      have hnot : left.agrees (middle.union right) = false := by
        rw [Bindings.agrees_comm, Bindings.agrees_union hright, Bindings.agrees_comm middle, hleft]
        rfl
      simp [hnot]
  | true =>
    have hl : (left.union middle).agrees right = (left.agrees right && middle.agrees right) :=
      Bindings.agrees_union hleft right
    cases hright : middle.agrees right with
    | false => simp [hl, hright]
    | true =>
      have hr : left.agrees (middle.union right) = left.agrees right := by
        rw [Bindings.agrees_comm, Bindings.agrees_union hright, Bindings.agrees_comm middle, hleft,
          Bindings.agrees_comm right, Bool.true_and]
      cases houter : left.agrees right with
      | false => simp [hl, hr, houter]
      | true => simp [hl, hr, houter, hright, Bindings.same_union_assoc hleft hright houter]

/-- **Joins may be regrouped.** -/
theorem join_assoc (a b c : List Bindings) :
    SameSolutions (join (join a b) c) (join a (join b c)) := by
  simp only [join_eq_flatMap, List.flatMap_assoc]
  refine SameSolutions.flatMap (fun l _ => SameSolutions.flatMap (fun m _ => ?_))
  -- the innermost loop over `c` is drawn out of the choice whether `l` and `m` agree
  have hswap : (pair l m).flatMap (fun lm => c.flatMap (pair lm))
      = c.flatMap (fun r => (pair l m).flatMap (fun lm => pair lm r)) := by
    unfold pair
    cases l.agrees m with
    | false => simp
    | true => simp
  rw [hswap]
  exact SameSolutions.flatMap (fun r _ => pair_assoc l m r)

/-- Two nested loops may be exchanged. -/
theorem flatMap_flatMap_perm {α β γ : Type} (as : List α) (bs : List β) (f : α → β → List γ) :
    (as.flatMap (fun a => bs.flatMap (f a))).Perm
      (bs.flatMap (fun b => as.flatMap (fun a => f a b))) := by
  have hbind := Multiset.bind_bind (as : Multiset α) (bs : Multiset β)
    (f := fun a b => (f a b : Multiset γ))
  simp only [Multiset.coe_bind] at hbind
  exact Multiset.coe_eq_coe.1 hbind

/-- **The sides of a join may be exchanged**, which changes the order of its
solutions. -/
theorem join_comm (a b : List Bindings) :
    ∃ rearranged, (join a b).Perm rearranged ∧ SameSolutions rearranged (join b a) := by
  refine ⟨b.flatMap (fun r => a.flatMap (fun l => pair l r)), ?_, ?_⟩
  · rw [join_eq_flatMap]
    exact flatMap_flatMap_perm a b pair
  · rw [join_eq_flatMap]
    exact SameSolutions.flatMap (fun r _ => SameSolutions.flatMap (fun l _ => pair_comm l r))

theorem join_perm {a a' b b' : List Bindings} (ha : a.Perm a') (hb : b.Perm b') :
    (join a b).Perm (join a' b') := by
  -- a join is made of the pairs of a product, and a product may be rearranged
  rw [join_eq_map_union, join_eq_map_union]
  exact ((ha.product hb).filter _).map _

/-! ## §3. Solutions from one store. -/

variable {store : Store} {condition : Option (Condition Value)}

/-- In one store the same entities are the same snapshots. -/
theorem eq_of_same {left right : Bindings} (hleft : BoundInStore store left)
    (hright : BoundInStore store right) (h : left.same right = true) : left = right := by
  refine Bindings.ext_find? (fun var => ?_)
  have hvar : (left.find? var).map Entity.identity = (right.find? var).map Entity.identity :=
    Bindings.same_iff.1 h var
  cases hl : left.find? var with
  | none =>
    rw [hl, Option.map_none, eq_comm, Option.map_eq_none_iff] at hvar
    exact hvar.symm
  | some e =>
    -- the other side means the same entity, and there is one snapshot of it
    rw [hl, Option.map_some, eq_comm, Option.map_eq_some_iff] at hvar
    obtain ⟨f, hr, hidentity⟩ := hvar
    rw [hr, eq_of_identity (hleft var e hl) (hright var f hr) hidentity.symm]

theorem SameSolutions.eq {left right : List Bindings} (h : SameSolutions left right)
    (hleft : ∀ l ∈ left, BoundInStore store l) (hright : ∀ r ∈ right, BoundInStore store r) :
    left = right := by
  induction h with
  | nil => rfl
  | cons hsame _ ih =>
    obtain ⟨hl, hls⟩ := List.forall_mem_cons.1 hleft
    obtain ⟨hr, hrs⟩ := List.forall_mem_cons.1 hright
    rw [eq_of_same hl hr hsame, ih hls hrs]

section

variable {a b c : List Bindings} (ha : ∀ s ∈ a, BoundInStore store s)
  (hb : ∀ s ∈ b, BoundInStore store s) (hc : ∀ s ∈ c, BoundInStore store s)

include ha hb

theorem join_comm_perm : (join a b).Perm (join b a) := by
  obtain ⟨rearranged, hperm, hsame⟩ := join_comm a b
  have hbound : ∀ s ∈ rearranged, BoundInStore store s := fun s hs =>
    boundInStore_of_mem_join ha hb s (hperm.mem_iff.2 hs)
  rw [← hsame.eq hbound (boundInStore_of_mem_join hb ha)]
  exact hperm

include hc

theorem join_assoc_eq : join (join a b) c = join a (join b c) :=
  (join_assoc a b c).eq (boundInStore_of_mem_join (boundInStore_of_mem_join ha hb) hc)
    (boundInStore_of_mem_join ha (boundInStore_of_mem_join hb hc))

/-- What is joined last may be joined before. -/
theorem join_right_comm : (join (join a b) c).Perm (join (join a c) b) := by
  rw [join_assoc_eq ha hb hc, join_assoc_eq ha hc hb]
  exact join_perm (.refl a) (join_comm_perm hb hc)

end

theorem foldl_join_perm_start (lists : List (List Bindings)) :
    ∀ {start start' : List Bindings}, start.Perm start' →
      (lists.foldl join start).Perm (lists.foldl join start') := by
  induction lists with
  | nil => exact id
  | cons list rest ih => exact fun h => ih (join_perm h (.refl list))

/-- **Any number of lists may be joined in any order.** -/
theorem foldl_join_perm {lists others : List (List Bindings)} (h : lists.Perm others) :
    ∀ {start : List Bindings}, (∀ s ∈ start, BoundInStore store s) →
      (∀ list ∈ lists, ∀ s ∈ list, BoundInStore store s) →
      (lists.foldl join start).Perm (others.foldl join start) := by
  induction h with
  | nil => exact fun _ _ => .refl _
  | cons list _ ih =>
    intro start hstart hlists
    obtain ⟨hlist, hrest⟩ := List.forall_mem_cons.1 hlists
    exact ih (boundInStore_of_mem_join hstart hlist) hrest
  | swap first second rest =>
    intro start hstart hlists
    -- the only case in which anything changes places
    obtain ⟨hsecond, hlists⟩ := List.forall_mem_cons.1 hlists
    obtain ⟨hfirst, -⟩ := List.forall_mem_cons.1 hlists
    exact foldl_join_perm_start rest (join_right_comm hstart hsecond hfirst)
  | trans hperm _ ih ih' =>
    intro start hstart hlists
    exact (ih hstart hlists).trans
      (ih' hstart (fun list hmem => hlists list (hperm.mem_iff.2 hmem)))

/-! ## §4. Patterns. -/

/-- The empty solution adds nothing. -/
theorem join_empty (list : List Bindings) : join [∅] list = list := by
  have hpair : ∀ s : Bindings, pair ∅ s = [s] := by
    intro s
    have hagrees : (∅ : Bindings).agrees s = true :=
      Bindings.agrees_iff.2 (fun _ _ _ hempty => nomatch hempty)
    have hunion : (∅ : Bindings).union s = s := by
      have hnone : ∀ var e f, (∅ : Bindings).find? var = some e → s.find? var = some f → e = f :=
        fun _ _ _ hempty => nomatch hempty
      exact Bindings.ext_find? (fun var => Bindings.find?_union hnone var)
    rw [pair, if_pos hagrees, hunion]
  rw [join_eq_flatMap, List.flatMap_singleton]
  simp only [funext hpair, List.flatMap_singleton']

theorem pattern_eq_foldl (chain : PatternElement PropertyMap) (rest : GraphPattern) :
    pattern store condition (chain :: rest)
      = ((chain :: rest).map (element store condition)).foldl join [∅] := by
  rw [List.map_cons, List.foldl_cons, join_empty]
  rfl

theorem pattern_perm (hstore : store.Integral) {chains others : GraphPattern}
    (h : chains.Perm others) :
    (pattern store condition chains).Perm (pattern store condition others) := by
  cases chains with
  | nil => rw [List.nil_perm.1 h]
  | cons chain rest =>
    cases others with
    | nil => exact absurd h.length_eq (by simp)
    | cons other rest' =>
      -- with the empty solution in front no chain is the first one
      rw [pattern_eq_foldl, pattern_eq_foldl]
      have hstart : ∀ s ∈ [(∅ : Bindings)], BoundInStore store s := by
        intro s hs
        rw [List.mem_singleton.1 hs]
        exact boundInStore_empty
      have hlists : ∀ list ∈ (chain :: rest).map (element store condition),
          ∀ s ∈ list, BoundInStore store s := by
        intro list hlist s hs
        obtain ⟨chain, -, rfl⟩ := List.mem_map.1 hlist
        exact boundInStore_of_mem_element hstore hs
      exact foldl_join_perm (h.map _) hstart hlists

/-- **Neither the order nor the grouping of chains changes the answers.**  For any
lists of solutions this is so up to snapshots and, where the sides of a join change
places, up to the order of its solutions.  A pattern and its rearrangements have
just the same solutions in any store, with the same snapshots. -/
theorem order_and_grouping :
    (∀ left right : Bindings, left.same right = true
        ↔ ∀ var, (left.find? var).map Entity.identity = (right.find? var).map Entity.identity)
      ∧ (∀ a b c : List Bindings, SameSolutions (join (join a b) c) (join a (join b c)))
      ∧ (∀ a b : List Bindings,
          ∃ rearranged, (join a b).Perm rearranged ∧ SameSolutions rearranged (join b a))
      ∧ ∀ store : Store, store.Obtainable → ∀ (condition : Option (Condition Value))
          (chains others : GraphPattern), chains.Perm others →
          (pattern store condition chains).Perm (pattern store condition others) :=
  ⟨fun _ _ => Bindings.same_iff, join_assoc, join_comm,
    fun _ hstore _ _ _ h => pattern_perm hstore.integral h⟩

/-- Begun with its second chain the pattern is found in another order. -/
theorem order_and_grouping_rotated :
    (Store.empty.run agedRun).2.Obtainable ∧ thereAndBack.Perm (thereAndBack.rotate 1)
      ∧ (pattern (Store.empty.run agedRun).2 none thereAndBack).map
          (fun s => (s.find? "a").map numberOf) = [some 1, some 2]
      ∧ (pattern (Store.empty.run agedRun).2 none (thereAndBack.rotate 1)).map
          (fun s => (s.find? "a").map numberOf) = [some 2, some 1]
      ∧ (pattern (Store.empty.run agedRun).2 none thereAndBack).Perm
          (pattern (Store.empty.run agedRun).2 none (thereAndBack.rotate 1)) := by
  have hstore : (Store.empty.run agedRun).2.Obtainable := Store.Obtainable.empty.run agedRun
  have hperm : thereAndBack.Perm (thereAndBack.rotate 1) := (List.rotate_perm thereAndBack 1).symm
  exact ⟨hstore, hperm, by decide +kernel, by decide +kernel,
    order_and_grouping.2.2.2 _ hstore none thereAndBack (thereAndBack.rotate 1) hperm⟩

end Search

end PropertyGraph
