/-
  PropertyGraph.Proofs.Value.Symmetry
  ───────────────────────────────────
  **THE EQUALITY OF PATTERNS FROM BOTH SIDES.**

  Maps are compared from one side: they have as many keys, and each key of the
  one is found in the other, under a value that is alike (`map_alike_map`).
  That says nothing about the keys of the other map; but keys are not repeated,
  so with as many of them on both sides there are no further ones
  (`keys_eq_of_forall_find?`), and the comparison goes entry by entry.

  From there on every law is an induction over both values.

      alike_comm       — it does not matter which value is compared with which
      alike_of_equals  — values that are equal are alike

  Alike itself is exactly a value without a NaN inside (`alike_self_iff`).
-/
import Mathlib.Data.List.Forall2
import Mathlib.Data.List.Perm.Subperm
import PropertyGraph.Proofs.SortedMap.Membership
import PropertyGraph.Proofs.Value.Alike

namespace PropertyGraph

/-! ## §1. Keys of one map among those of another. -/

/-- With as many entries on both sides, each key of the one being among those of
the other, the keys are the same. -/
theorem SortedEntries.keys_eq_of_forall_find? {κ α β : Type} [Ord κ] [Std.TransOrd κ]
    [Std.LawfulEqOrd κ] {left : List (κ × α)} {right : List (κ × β)} (hleft : Ascending left)
    (hright : Ascending right) (hlength : left.length = right.length)
    (h : ∀ entry ∈ left, ∃ value, find? entry.1 right = some value) :
    left.map (·.1) = right.map (·.1) := by
  have hpairwise {γ : Type} {entries : List (κ × γ)} (hasc : Ascending entries) :
      (entries.map (·.1)).Pairwise (fun a b => compare a b = .lt) :=
    List.pairwise_map.2 hasc
  have hnodup : (left.map (·.1)).Nodup := by
    refine (hpairwise hleft).imp ?_
    intro a b hlt heq
    rw [heq, Std.ReflOrd.compare_self] at hlt
    cases hlt
  have hsubset : left.map (·.1) ⊆ right.map (·.1) := by
    intro key hkey
    obtain ⟨entry, hentry, rfl⟩ := List.mem_map.1 hkey
    obtain ⟨value, hvalue⟩ := h entry hentry
    exact List.mem_map_of_mem (mem_of_find? hvalue)
  have hperm : (left.map (·.1)).Perm (right.map (·.1)) := by
    -- without repeats and as many: no key of the right one is left out
    refine (List.subperm_of_subset hnodup hsubset).perm_of_length_le ?_
    rw [List.length_map, List.length_map]
    exact Nat.le_of_eq hlength.symm
  exact eq_of_mem_iff (hpairwise hleft) (hpairwise hright) (fun _ => hperm.mem_iff)

namespace Value

/-! ## §2. Lists and maps. -/

theorem alikeItems_iff {xs ys : List Value} :
    alikeItems xs ys = true ↔ List.Forall₂ (fun x y => x.alike y = true) xs ys := by
  induction xs generalizing ys with
  | nil => cases ys <;> simp [alikeItems]
  | cons x xs ih => cases ys <;> simp [alikeItems, ih]

theorem alikeEntries_iff {xs ys : List (String × Value)} :
    alikeEntries xs ys = true
      ↔ List.Forall₂ (fun x y => x.1 = y.1 ∧ x.2.alike y.2 = true) xs ys := by
  induction xs generalizing ys with
  | nil => cases ys <;> simp [alikeEntries]
  | cons x xs ih => cases ys <;> simp [alikeEntries, ih]

/-- Lists are alike if they have as many items and these are alike one by one. -/
theorem list_alike_list (xs ys : List Value) :
    (Value.list xs).alike (.list ys)
      = (xs.length == ys.length && (xs.zip ys).all (fun pair => pair.1.alike pair.2)) := by
  rw [Bool.eq_iff_iff, alike, alikeItems_iff, List.forall₂_iff_zip]
  simp only [Bool.and_eq_true, beq_iff_eq, List.all_eq_true, Prod.forall]

/-- **Maps are compared by their keys**, those of the left one. -/
theorem map_alike_map (left right : PropertyMap) :
    (Value.map left.entries).alike (.map right.entries)
      = (left.size == right.size
        && left.entries.all (fun entry => (right.find? entry.1).any entry.2.alike)) := by
  obtain ⟨xs, hxs, -⟩ := left
  obtain ⟨ys, hys, -⟩ := right
  show (Value.map xs).alike (.map ys) = (xs.length == ys.length
    && xs.all (fun entry => (SortedEntries.find? entry.1 ys).any entry.2.alike))
  rw [Bool.eq_iff_iff, alike, alikeEntries_iff, Bool.and_eq_true, beq_iff_eq, List.all_eq_true]
  simp only [Option.any_eq_true]
  constructor
  · intro halike
    refine ⟨halike.length_eq, ?_⟩
    intro entry hentry
    -- the entry beside it is the one that is found
    obtain ⟨place, hplace, rfl⟩ := List.mem_iff_getElem.1 hentry
    have hright : place < ys.length := halike.length_eq ▸ hplace
    obtain ⟨hkey, hvalue⟩ := (List.forall₂_iff_get.1 halike).2 place hplace hright
    refine ⟨ys[place].2, SortedEntries.find?_of_mem hys ?_, hvalue⟩
    rw [show xs[place].1 = ys[place].1 from hkey]
    exact List.getElem_mem hright
  · rintro ⟨hlength, hfound⟩
    have hkeys : xs.map (·.1) = ys.map (·.1) :=
      SortedEntries.keys_eq_of_forall_find? hxs hys hlength (fun entry hentry =>
        (hfound entry hentry).imp (fun _ => And.left))
    refine List.forall₂_iff_get.2 ⟨hlength, fun place hplace hright => ?_⟩
    have hkey : xs[place].1 = ys[place].1 := by
      simpa [hplace, hright] using congrArg (fun keys => keys[place]?) hkeys
    obtain ⟨value, hfind, hvalue⟩ := hfound xs[place] (List.getElem_mem hplace)
    have hsame : SortedEntries.find? xs[place].1 ys = some ys[place].2 := by
      rw [hkey]
      exact SortedEntries.find?_of_mem hys (List.getElem_mem hright)
    obtain rfl := Option.some.inj (hfind.symm.trans hsame)
    exact ⟨hkey, hvalue⟩

/-! ## §3. Laws. -/

mutual

/-- **It does not matter which value is compared with which.** -/
theorem alike_comm : ∀ a b : Value, a.alike b = b.alike a
  | .null, b => by cases b <;> simp only [alike]
  | .bool a, b => by
    cases b <;> simp only [alike]
    exact BEq.comm
  | .int i, b => by
    cases b <;> simp only [alike]
    exact BEq.comm
  | .float x, b => by
    cases b <;> simp only [alike]
    exact x.sameNumber_comm _
  | .str s, b => by
    cases b <;> simp only [alike]
    exact BEq.comm
  | .list xs, b => by
    cases b <;> simp only [alike]
    exact alikeItems_comm xs _
  | .map xs, b => by
    cases b <;> simp only [alike]
    exact alikeEntries_comm xs _

theorem alikeItems_comm : ∀ xs ys : List Value, alikeItems xs ys = alikeItems ys xs
  | [], ys => by cases ys <;> simp only [alikeItems]
  | x :: xs, [] => by simp only [alikeItems]
  | x :: xs, y :: ys => by
    rw [alikeItems, alikeItems, alike_comm x y, alikeItems_comm xs ys]

theorem alikeEntries_comm : ∀ xs ys : List (String × Value),
    alikeEntries xs ys = alikeEntries ys xs
  | [], ys => by cases ys <;> simp only [alikeEntries]
  | x :: xs, [] => by simp only [alikeEntries]
  | (k, x) :: xs, (l, y) :: ys => by
    rw [alikeEntries, alikeEntries, alike_comm x y, alikeEntries_comm xs ys,
      show (k == l) = (l == k) from BEq.comm]

end

mutual

/-- Values that are equal are alike. -/
theorem alike_of_equals : ∀ {a b : Value}, a.equals b = true → a.alike b = true
  | .null, b, h => by cases b <;> simp only [equals, alike, Bool.false_eq_true] at h ⊢
  | .bool _, b, h => by
    cases b <;> simp only [equals, Bool.false_eq_true] at h
    simpa only [alike] using h
  | .int _, b, h => by
    cases b <;> simp only [equals, Bool.false_eq_true] at h
    simpa only [alike] using h
  | .float _, b, h => by
    cases b <;> simp only [equals, Bool.false_eq_true] at h
    simpa only [alike] using h
  | .str _, b, h => by
    cases b <;> simp only [equals, Bool.false_eq_true] at h
    simpa only [alike] using h
  | .list _, b, h => by
    cases b <;> simp only [equals, Bool.false_eq_true] at h
    rw [alike]
    exact alikeItems_of_equals h
  | .map _, b, h => by
    cases b <;> simp only [equals, Bool.false_eq_true] at h
    rw [alike]
    exact alikeEntries_of_equals h

theorem alikeItems_of_equals : ∀ {xs ys : List Value}, equalsItems xs ys = true →
    alikeItems xs ys = true
  | [], [], _ => by rw [alikeItems]
  | x :: xs, y :: ys, h => by
    rw [equalsItems, Bool.and_eq_true] at h
    rw [alikeItems, alike_of_equals h.1, alikeItems_of_equals h.2, Bool.and_self]

theorem alikeEntries_of_equals : ∀ {xs ys : List (String × Value)}, equalsEntries xs ys = true →
    alikeEntries xs ys = true
  | [], [], _ => by rw [alikeEntries]
  | (k, x) :: xs, (l, y) :: ys, h => by
    rw [equalsEntries, Bool.and_eq_true, Bool.and_eq_true] at h
    rw [alikeEntries, h.1.1, alike_of_equals h.1.2, alikeEntries_of_equals h.2, Bool.and_self,
      Bool.and_self]

end

/-! ## §4. The equality of patterns. -/

/-- **Pattern equality is symmetric**, a value is alike itself exactly if there is
no NaN inside it, and it is coarser than structural equality.  Lists and maps
are compared as they are stored: lists item by item, maps by looking up the
keys of the left one in the right one. -/
theorem alike_symmetric (a b : Value) (xs ys : List Value) (left right : PropertyMap) :
    a.alike b = b.alike a
      ∧ (a.alike a = true ↔ ¬ Inside (.float .nan) a)
      ∧ (a.equals b = true → a.alike b = true)
      ∧ (Value.list xs).alike (.list ys)
        = (xs.length == ys.length && (xs.zip ys).all (fun pair => pair.1.alike pair.2))
      ∧ (Value.map left.entries).alike (.map right.entries)
        = (left.size == right.size
          && left.entries.all (fun entry => (right.find? entry.1).any entry.2.alike)) :=
  ⟨alike_comm a b, (alike_self_iff a).trans noNaN_iff, alike_of_equals, list_alike_list xs ys,
    map_alike_map left right⟩

/-- A map with a zero of either sign. -/
def zeroMap (negative : Bool) : Value :=
  .map [("at", .list [.float (.finite (Finite64.zero negative)), .str "x"]), ("by", .int 7)]

theorem alike_symmetric_zeroMap :
    (zeroMap false).equals (zeroMap true) = true ∧ (zeroMap false).alike (zeroMap true) = true := by
  have hequal : (zeroMap false).equals (zeroMap true) = true := by decide
  exact ⟨hequal, (alike_symmetric (zeroMap false) (zeroMap true) [] [] ∅ ∅).2.2.1 hequal⟩

end Value

end PropertyGraph
