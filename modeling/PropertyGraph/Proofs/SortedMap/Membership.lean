/-
  PropertyGraph.Proofs.SortedMap.Membership
  ─────────────────────────────────────────
  **WHAT IS IN A SORTED MAP OR SET.**

  Maps are compared through their look-ups, sets and lists of keys through
  their members.  Two ascending lists with the same members are equal
  (`eq_of_mem_iff`), and that is how every scan of a map is matched with
  the look-up through an index:

      ids ascending, the keys of the entries with `p`
        →  ids.filterMap map.find? = map.values.filter p

  (`filterMap_find?_eq_filter_values`).
-/
import PropertyGraph.SortedMap.Basic

namespace PropertyGraph

/-! ## §1. Ascending lists. -/

/-- Ascending lists with the same members are equal. -/
theorem eq_of_mem_iff {κ : Type} [Ord κ] [Std.TransOrd κ] {left right : List κ}
    (hleft : left.Pairwise (fun a b => compare a b = .lt))
    (hright : right.Pairwise (fun a b => compare a b = .lt))
    (h : ∀ a, a ∈ left ↔ a ∈ right) : left = right := by
  have hne : ∀ a b : κ, compare a b = .lt → a ≠ b := by
    intro a b hab heq
    rw [heq, Std.ReflOrd.compare_self] at hab
    exact absurd hab (by decide)
  have hnot : ∀ a b : κ, compare a b = .lt → ¬ compare b a = .lt := by
    intro a b hab hba
    rw [Std.OrientedOrd.eq_swap, hba] at hab
    exact absurd hab (by decide)
  have hperm : left.Perm right := by
    rw [List.perm_ext_iff_of_nodup (hleft.imp (hne _ _)) (hright.imp (hne _ _))]
    exact h
  exact hperm.eq_of_pairwise (fun a b _ _ hab hba => absurd hba (hnot a b hab)) hleft hright

theorem filterMap_eq_map_of_forall {α β : Type} {f : α → Option β} {g : α → β} {items : List α}
    (h : ∀ item ∈ items, f item = some (g item)) : items.filterMap f = items.map g := by
  induction items with
  | nil => rfl
  | cons item rest ih =>
    rw [List.filterMap_cons_some (h item List.mem_cons_self), List.map_cons,
      ih (fun other hother => h other (List.mem_cons_of_mem _ hother))]

/-! ## §2. Entries that are in order already. -/

namespace SortedEntries

variable {κ α : Type} [Ord κ] [Std.TransOrd κ]

/-- A key past all others is put at the end. -/
theorem insert_of_forall_lt {key : κ} {value : α} {entries : List (κ × α)}
    (h : ∀ entry ∈ entries, compare entry.1 key = .lt) :
    insert key value entries = entries ++ [(key, value)] := by
  induction entries with
  | nil => rfl
  | cons entry rest ih =>
    have hgt : compare key entry.1 = .gt :=
      Std.OrientedCmp.gt_iff_lt.2 (h entry List.mem_cons_self)
    rw [insert, hgt]
    show entry :: insert key value rest = entry :: (rest ++ [(key, value)])
    rw [ih (fun other hother => h other (List.mem_cons_of_mem _ hother))]

theorem foldl_insert_of_ascending {pairs : List (κ × α)} :
    ∀ {entries : List (κ × α)}, Ascending (entries ++ pairs) →
      pairs.foldl (fun entries pair => insert pair.1 pair.2 entries) entries
        = entries ++ pairs := by
  induction pairs with
  | nil => intro entries _; exact (List.append_nil entries).symm
  | cons pair rest ih =>
    intro entries h
    have hlt : ∀ entry ∈ entries, compare entry.1 pair.1 = .lt := fun entry hentry =>
      (List.pairwise_append.1 h).2.2 entry hentry pair List.mem_cons_self
    have hsplit : entries ++ pair :: rest = (entries ++ [pair]) ++ rest := by
      rw [List.append_assoc]
      rfl
    rw [List.foldl_cons, insert_of_forall_lt hlt, ih (hsplit ▸ h), hsplit]

/-- Putting entries into order that are in order changes nothing. -/
theorem ofList_of_ascending {entries : List (κ × α)} (h : Ascending entries) :
    ofList entries = entries :=
  foldl_insert_of_ascending h

omit [Std.TransOrd κ] in
theorem insert_map_value {β : Type} (f : α → β) (key : κ) (value : α) (entries : List (κ × α)) :
    insert key (f value) (entries.map (fun entry => (entry.1, f entry.2)))
      = (insert key value entries).map (fun entry => (entry.1, f entry.2)) := by
  induction entries with
  | nil => rfl
  | cons entry rest ih =>
    rw [List.map_cons, insert, insert]
    dsimp only
    cases compare key entry.1 with
    | lt => rfl
    | eq => rfl
    | gt =>
      dsimp only
      rw [ih, List.map_cons]

omit [Std.TransOrd κ] in
/-- The order of entries does not depend on their values. -/
theorem ofList_map_value {β : Type} (f : α → β) (pairs : List (κ × α)) :
    ofList (pairs.map (fun entry => (entry.1, f entry.2)))
      = (ofList pairs).map (fun entry => (entry.1, f entry.2)) := by
  have hfold : ∀ entries : List (κ × α),
      (pairs.map (fun entry => (entry.1, f entry.2))).foldl
          (fun entries pair => insert pair.1 pair.2 entries)
          (entries.map (fun entry => (entry.1, f entry.2)))
        = (pairs.foldl (fun entries pair => insert pair.1 pair.2 entries) entries).map
          (fun entry => (entry.1, f entry.2)) := by
    induction pairs with
    | nil => exact fun _ => rfl
    | cons pair rest ih =>
      intro entries
      rw [List.map_cons, List.foldl_cons, List.foldl_cons]
      dsimp only
      rw [insert_map_value, ih]
  exact hfold []

end SortedEntries

/-! ## §3. Maps. -/

namespace SortedMap

variable {κ α β : Type} [Ord κ]

theorem contains_eq_true_iff {map : SortedMap κ α} {key : κ} :
    map.contains key = true ↔ ∃ value, map.find? key = some value :=
  Option.isSome_iff_exists

theorem contains_eq_false_iff {map : SortedMap κ α} {key : κ} :
    map.contains key = false ↔ map.find? key = none := by
  rw [contains, Option.isSome_eq_false_iff, Option.isNone_iff_eq_none]

/-- Keys ascend strictly. -/
theorem pairwise_keys (map : SortedMap κ α) :
    map.keys.Pairwise (fun a b => compare a b = .lt) := by
  rw [keys, List.pairwise_map]
  exact map.ascending

/-- The map with only those entries whose values satisfy `p`. -/
def filterValues (p : α → Bool) (map : SortedMap κ α) : SortedMap κ α :=
  ⟨map.entries.filter (fun entry => p entry.2), List.Pairwise.filter _ map.ascending⟩

theorem values_filterValues (p : α → Bool) (map : SortedMap κ α) :
    (map.filterValues p).values = map.values.filter p := by
  rw [values, values, filterValues, List.filter_map]
  rfl

theorem values_mapValues (f : α → β) (map : SortedMap κ α) :
    (map.mapValues f).values = map.values.map f := by
  simp only [values, mapValues, List.map_map]
  rfl

theorem size_eq_length_values (map : SortedMap κ α) : map.size = map.values.length := by
  rw [size, values, List.length_map]

variable [Std.TransOrd κ] [Std.LawfulEqOrd κ]

theorem find?_insert_eq [DecidableEq κ] (map : SortedMap κ α) (key sought : κ) (value : α) :
    (map.insert key value).find? sought
      = if sought = key then some value else map.find? sought := by
  rw [find?_insert]
  simp only [Std.compare_eq_iff_eq]

omit [Std.TransOrd κ] in
theorem find?_erase_eq [DecidableEq κ] (map : SortedMap κ α) (key sought : κ) :
    (map.erase key).find? sought = if sought = key then none else map.find? sought := by
  rw [find?_erase]
  simp only [Std.compare_eq_iff_eq]

/-- A value under a key past all others is put at the end. -/
theorem values_insert_of_forall_lt {map : SortedMap κ α} {key : κ} {value : α}
    (h : ∀ {k v}, map.find? k = some v → compare k key = .lt) :
    (map.insert key value).values = map.values ++ [value] := by
  have hlt : ∀ entry ∈ map.entries, compare entry.1 key = .lt :=
    fun entry hentry => h (find?_eq_some_iff.2 hentry)
  show (SortedEntries.insert key value map.entries).map (·.2) = map.entries.map (·.2) ++ [value]
  rw [SortedEntries.insert_of_forall_lt hlt, List.map_append]
  rfl

theorem mem_keys_iff {map : SortedMap κ α} {key : κ} :
    key ∈ map.keys ↔ ∃ value, map.find? key = some value := by
  simp only [keys, List.mem_map, find?_eq_some_iff]
  constructor
  · intro h
    obtain ⟨⟨k, v⟩, hmem, rfl⟩ := h
    exact ⟨v, hmem⟩
  · intro h
    obtain ⟨v, hmem⟩ := h
    exact ⟨(key, v), hmem, rfl⟩

theorem mem_values_iff {map : SortedMap κ α} {value : α} :
    value ∈ map.values ↔ ∃ key, map.find? key = some value := by
  simp only [values, List.mem_map, find?_eq_some_iff]
  constructor
  · intro h
    obtain ⟨⟨k, v⟩, hmem, rfl⟩ := h
    exact ⟨k, hmem⟩
  · intro h
    obtain ⟨k, hmem⟩ := h
    exact ⟨(k, value), hmem, rfl⟩

theorem find?_filterValues (p : α → Bool) (map : SortedMap κ α) (key : κ) :
    (map.filterValues p).find? key = (map.find? key).filter p := by
  rw [Option.ext_iff]
  intro value
  rw [find?_eq_some_iff, Option.filter_eq_some_iff, find?_eq_some_iff]
  exact List.mem_filter

/-- A map that finds just the values satisfying `p` that another one finds. -/
theorem eq_filterValues {p : α → Bool} {part map : SortedMap κ α}
    (h : ∀ key value, part.find? key = some value ↔ map.find? key = some value ∧ p value = true) :
    part = map.filterValues p := by
  apply ext_find?
  intro key
  rw [Option.ext_iff]
  intro value
  rw [h, find?_filterValues, Option.filter_eq_some_iff]

theorem find?_mapValues (f : α → β) (map : SortedMap κ α) (key : κ) :
    (map.mapValues f).find? key = (map.find? key).map f := by
  rw [Option.ext_iff]
  intro value
  rw [find?_eq_some_iff, Option.map_eq_some_iff]
  constructor
  · intro hmem
    obtain ⟨⟨k, v⟩, hkv, heq⟩ := List.mem_map.1 hmem
    obtain ⟨rfl, rfl⟩ := Prod.mk.inj heq
    exact ⟨v, find?_eq_some_iff.2 hkv, rfl⟩
  · intro h
    obtain ⟨v, hv, rfl⟩ := h
    exact List.mem_map.2 ⟨(key, v), find?_eq_some_iff.1 hv, rfl⟩

/-- Values that do not change make no other map. -/
theorem mapValues_of_forall {f : α → α} {map : SortedMap κ α}
    (h : ∀ value ∈ map.values, f value = value) : map.mapValues f = map := by
  apply ext_find?
  intro key
  rw [find?_mapValues]
  cases hfound : map.find? key with
  | none => rfl
  | some value => rw [Option.map_some, h value (mem_values_iff.2 ⟨key, hfound⟩)]

/-- **A look-up of ascending keys is a scan.**  The keys are those of the
entries that satisfy `p`. -/
theorem filterMap_find?_eq_filter_values {map : SortedMap κ α} {ids : List κ} {p : α → Bool}
    (hasc : ids.Pairwise (fun a b => compare a b = .lt))
    (hmem : ∀ id, id ∈ ids ↔ ∃ value, map.find? id = some value ∧ p value = true) :
    ids.filterMap map.find? = map.values.filter p := by
  have hids : ids = (map.filterValues p).keys := by
    refine eq_of_mem_iff hasc (pairwise_keys _) (fun id => ?_)
    rw [hmem, mem_keys_iff]
    simp only [find?_filterValues, Option.filter_eq_some_iff]
  have hfind : ∀ entry ∈ (map.filterValues p).entries, map.find? entry.1 = some entry.2 := by
    intro entry hentry
    exact find?_eq_some_iff.2 (List.mem_filter.1 hentry).1
  calc ids.filterMap map.find?
      = (map.filterValues p).entries.filterMap (fun entry => map.find? entry.1) := by
        rw [hids, keys, List.filterMap_map]
        rfl
    _ = (map.filterValues p).entries.map (·.2) := filterMap_eq_map_of_forall hfind
    _ = map.values.filter p := values_filterValues p map

end SortedMap

/-! ## §4. Sets. -/

namespace SortedSet

variable {κ : Type} [Ord κ] [Std.TransOrd κ] [Std.LawfulEqOrd κ]

theorem mem_toList_iff {set : SortedSet κ} {element : κ} :
    element ∈ set.toList ↔ SortedMap.find? set element = some () := by
  rw [toList, SortedMap.mem_keys_iff]
  exact ⟨fun ⟨_, h⟩ => h, fun h => ⟨(), h⟩⟩

/-- Members determine a set. -/
theorem ext_mem {left right : SortedSet κ} (h : ∀ a, a ∈ left.toList ↔ a ∈ right.toList) :
    left = right := by
  apply SortedMap.ext_find?
  intro a
  rw [Option.ext_iff]
  intro u
  exact mem_toList_iff.symm.trans ((h a).trans mem_toList_iff)

omit [Std.TransOrd κ] [Std.LawfulEqOrd κ] in
@[simp] theorem mem_toList_empty {element : κ} :
    element ∈ toList (∅ : SortedSet κ) ↔ False := by
  constructor
  · intro h
    exact absurd h List.not_mem_nil
  · exact False.elim

@[simp] theorem mem_toList_add {set : SortedSet κ} {new element : κ} :
    element ∈ (set.add new).toList ↔ element = new ∨ element ∈ set.toList := by
  rw [mem_toList_iff, mem_toList_iff, add, SortedMap.find?_insert]
  by_cases h : compare element new = .eq
  · simp [Std.compare_eq_iff_eq.1 h]
  · rw [if_neg h]
    have hne : element ≠ new := fun heq => h (Std.compare_eq_iff_eq.2 heq)
    simp [hne]

theorem add_comm (set : SortedSet κ) (a b : κ) : (set.add a).add b = (set.add b).add a :=
  ext_mem (fun _ => by simp only [mem_toList_add, or_left_comm])

@[simp] theorem mem_toList_remove {set : SortedSet κ} {old element : κ} :
    element ∈ (set.remove old).toList ↔ element ≠ old ∧ element ∈ set.toList := by
  rw [mem_toList_iff, mem_toList_iff, remove, SortedMap.find?_erase]
  by_cases h : compare element old = .eq
  · simp [Std.compare_eq_iff_eq.1 h]
  · rw [if_neg h]
    have hne : element ≠ old := fun heq => h (Std.compare_eq_iff_eq.2 heq)
    simp [hne]

theorem mem_toList_foldl_add {elements : List κ} {set : SortedSet κ} {element : κ} :
    element ∈ (elements.foldl add set).toList ↔ element ∈ elements ∨ element ∈ set.toList := by
  induction elements generalizing set with
  | nil => simp
  | cons first rest ih =>
    rw [List.foldl_cons, ih, mem_toList_add, List.mem_cons, or_left_comm, or_assoc]

@[simp] theorem mem_toList_union {left right : SortedSet κ} {element : κ} :
    element ∈ (left.union right).toList ↔ element ∈ left.toList ∨ element ∈ right.toList := by
  rw [union, mem_toList_foldl_add]
  exact or_comm

omit [Std.LawfulEqOrd κ] in
theorem ofList_eq_foldl_add (elements : List κ) : ofList elements = elements.foldl add ∅ := by
  have key : ∀ (elements : List κ) (set : SortedSet κ),
      ((elements.map (fun element => (element, ()))).foldl
        (fun entries pair => SortedEntries.insert pair.1 pair.2 entries) set.entries)
        = (elements.foldl add set).entries := by
    intro elements
    induction elements with
    | nil => intro set; rfl
    | cons first rest ih => intro set; exact ih (set.add first)
  have hentries : (ofList elements).entries = (elements.foldl add ∅).entries := key elements ∅
  cases hl : ofList elements
  cases hr : elements.foldl add (∅ : SortedSet κ)
  simp_all

@[simp] theorem mem_toList_ofList {elements : List κ} {element : κ} :
    element ∈ (ofList elements).toList ↔ element ∈ elements := by
  rw [ofList_eq_foldl_add, mem_toList_foldl_add]
  simp

/-- A set is the set of its elements. -/
theorem ofList_toList (set : SortedSet κ) : ofList set.toList = set :=
  ext_mem (fun _ => mem_toList_ofList)

omit [Std.TransOrd κ] [Std.LawfulEqOrd κ] in
/-- Elements ascend strictly. -/
theorem pairwise_toList (set : SortedSet κ) :
    set.toList.Pairwise (fun a b => compare a b = .lt) :=
  SortedMap.pairwise_keys set

end SortedSet

end PropertyGraph
