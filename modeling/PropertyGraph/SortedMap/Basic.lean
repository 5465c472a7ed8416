/-
  PropertyGraph.SortedMap.Basic
  ─────────────────────────────
  **FINITE MAPS THAT LIST THEIR KEYS IN ASCENDING ORDER.**

  Every collection of the database is read back in key order: nodes and
  relationships by id, properties and bound variables by name, labels by
  text.  The order is therefore part of the type: a `SortedMap` is a list of
  entries with a proof that its keys ascend strictly, so two maps with the
  same look-ups are the same map (`SortedMap.ext_find?`).

  The operations are written twice over one piece of code: `SortedEntries`
  works on bare lists (nested property values need it there), `SortedMap`
  carries the proof along.

  Main statements, each through the look-up `find?`:

      find?_insert   — the new entry, and nothing else, changes
      find?_erase    — the erased key, and nothing else, disappears
      ext_find?      — look-ups determine the map
-/

namespace PropertyGraph

/-! ## §1. Bare entry lists. -/

namespace SortedEntries

variable {κ α β : Type} [Ord κ]

/-- Keys ascend strictly. -/
def Ascending (entries : List (κ × α)) : Prop :=
  entries.Pairwise (fun a b => compare a.1 b.1 = .lt)

instance (entries : List (κ × α)) : Decidable (Ascending entries) :=
  inferInstanceAs (Decidable (entries.Pairwise _))

/-- Puts `key ↦ value` at its place in the order, in the place of an entry
with an equal key. -/
def insert (key : κ) (value : α) : List (κ × α) → List (κ × α)
  | [] => [(key, value)]
  | entry :: rest =>
    match compare key entry.1 with
    | .lt => (key, value) :: entry :: rest
    | .eq => (key, value) :: rest
    | .gt => entry :: insert key value rest

/-- The value of the first entry with this key. -/
def find? (key : κ) : List (κ × α) → Option α
  | [] => none
  | entry :: rest =>
    if compare key entry.1 = .eq then some entry.2 else find? key rest

/-- Every entry but those with this key. -/
def erase (key : κ) (entries : List (κ × α)) : List (κ × α) :=
  entries.filter (fun entry => compare key entry.1 != .eq)

/-- All pairs put into order; of two with the same key the later one stays. -/
def ofList (pairs : List (κ × α)) : List (κ × α) :=
  pairs.foldl (fun entries pair => insert pair.1 pair.2 entries) []

theorem mem_insert {key : κ} {value : α} {entry : κ × α} {entries : List (κ × α)}
    (h : entry ∈ insert key value entries) :
    entry = (key, value) ∨ entry ∈ entries := by
  induction entries with
  | nil => simpa [insert] using h
  | cons first rest ih =>
    rw [insert] at h
    split at h
    · simpa using h
    · rcases List.mem_cons.1 h with h | h
      · exact .inl h
      · exact .inr (List.mem_cons_of_mem _ h)
    · rcases List.mem_cons.1 h with h | h
      · exact .inr (h ▸ List.mem_cons_self)
      · exact (ih h).imp id (List.mem_cons_of_mem _)

variable [Std.TransOrd κ]

theorem ascending_insert (key : κ) (value : α) {entries : List (κ × α)}
    (h : Ascending entries) : Ascending (insert key value entries) := by
  induction entries with
  | nil => simp [insert, Ascending]
  | cons first rest ih =>
    obtain ⟨hfirst, hrest⟩ := List.pairwise_cons.1 h
    rw [insert]
    split
    next hlt =>
      refine List.Pairwise.cons (fun entry hentry => ?_) h
      rcases List.mem_cons.1 hentry with rfl | hentry
      · exact hlt
      · exact Std.TransCmp.lt_trans hlt (hfirst entry hentry)
    next heq =>
      exact List.Pairwise.cons
        (fun entry hentry => Std.TransCmp.lt_of_eq_of_lt heq (hfirst entry hentry)) hrest
    next hgt =>
      refine List.Pairwise.cons (fun entry hentry => ?_) (ih hrest)
      rcases mem_insert hentry with rfl | hentry
      · exact Std.OrientedCmp.gt_iff_lt.1 hgt
      · exact hfirst entry hentry

omit [Std.TransOrd κ] in
theorem ascending_erase (key : κ) {entries : List (κ × α)}
    (h : Ascending entries) : Ascending (erase key entries) :=
  List.Pairwise.filter _ h

theorem ascending_foldl_insert (pairs : List (κ × α)) {entries : List (κ × α)}
    (h : Ascending entries) :
    Ascending (pairs.foldl (fun entries pair => insert pair.1 pair.2 entries) entries) := by
  induction pairs generalizing entries with
  | nil => exact h
  | cons pair rest ih => exact ih (ascending_insert pair.1 pair.2 h)

theorem ascending_ofList (pairs : List (κ × α)) : Ascending (ofList pairs) :=
  ascending_foldl_insert pairs List.Pairwise.nil

omit [Std.TransOrd κ] in
theorem ascending_map_value (f : α → β) {entries : List (κ × α)} (h : Ascending entries) :
    Ascending (entries.map (fun entry => (entry.1, f entry.2))) :=
  List.Pairwise.map _ (fun _ _ hlt => hlt) h

variable [Std.LawfulEqOrd κ]

theorem find?_insert (key sought : κ) (value : α) (entries : List (κ × α)) :
    find? sought (insert key value entries)
      = if compare sought key = .eq then some value else find? sought entries := by
  induction entries with
  | nil => simp [insert, find?]
  | cons first rest ih =>
    rw [insert]
    split
    · simp [find?]
    next heq =>
      have hkey := Std.LawfulEqCmp.eq_of_compare heq
      simp only [find?, hkey]
      split <;> rfl
    next hgt =>
      simp only [find?, ih]
      by_cases hs : compare sought first.1 = .eq
      · have hs' := Std.LawfulEqCmp.eq_of_compare hs
        subst hs'
        have : compare first.1 key ≠ .eq := by
          rw [Std.OrientedCmp.gt_iff_lt] at hgt; simp [hgt]
        simp [this]
      · simp [hs]

omit [Std.TransOrd κ] in
theorem find?_erase (key sought : κ) (entries : List (κ × α)) :
    find? sought (erase key entries)
      = if compare sought key = .eq then none else find? sought entries := by
  induction entries with
  | nil => simp [erase, find?]
  | cons first rest ih =>
    rw [erase] at ih ⊢
    by_cases hk : compare key first.1 = .eq
    · rw [List.filter_cons_of_neg (by simp [hk]), ih, find?, Std.LawfulEqCmp.eq_of_compare hk]
      split <;> rfl
    · rw [List.filter_cons_of_pos (by simpa using hk)]
      simp only [find?, ih]
      by_cases hs : compare sought first.1 = .eq
      · have : compare sought key ≠ .eq := fun h => by
          rw [Std.LawfulEqCmp.eq_of_compare h] at hs
          exact hk hs
        rw [if_pos hs, if_neg this, if_pos hs]
      · rw [if_neg hs, if_neg hs]

omit [Std.TransOrd κ] in
/-- A look-up finds an entry that is there. -/
theorem mem_of_find? {key : κ} {value : α} {entries : List (κ × α)}
    (h : find? key entries = some value) : (key, value) ∈ entries := by
  induction entries with
  | nil => simp [find?] at h
  | cons first rest ih =>
    rw [find?] at h
    split at h
    next heq =>
      have := Std.LawfulEqCmp.eq_of_compare heq
      obtain ⟨k, v⟩ := first
      simp_all
    next => exact List.mem_cons_of_mem _ (ih h)

/-- In ascending entries each entry is found under its key. -/
theorem find?_of_mem {key : κ} {value : α} {entries : List (κ × α)}
    (hasc : Ascending entries) (h : (key, value) ∈ entries) :
    find? key entries = some value := by
  induction entries with
  | nil => simp at h
  | cons first rest ih =>
    obtain ⟨hfirst, hrest⟩ := List.pairwise_cons.1 hasc
    rw [find?]
    rcases List.mem_cons.1 h with rfl | hmem
    · simp
    · have hlt := hfirst _ hmem
      have : compare key first.1 ≠ .eq := by
        rw [Std.OrientedOrd.eq_swap, hlt]; simp
      rw [if_neg this]
      exact ih hrest hmem

theorem find?_eq_some_iff {key : κ} {value : α} {entries : List (κ × α)}
    (hasc : Ascending entries) :
    find? key entries = some value ↔ (key, value) ∈ entries :=
  ⟨mem_of_find?, find?_of_mem hasc⟩

omit [Std.LawfulEqOrd κ] in
/-- Ascending entries hold nothing twice. -/
theorem nodup_of_ascending {entries : List (κ × α)} (h : Ascending entries) :
    entries.Nodup :=
  List.Pairwise.imp (fun hlt heq => by simp [heq] at hlt) h

/-- Look-ups determine an ascending list of entries. -/
theorem ext_find? {left right : List (κ × α)} (hleft : Ascending left)
    (hright : Ascending right) (h : ∀ key, find? key left = find? key right) :
    left = right := by
  have mem_iff : ∀ entry, entry ∈ left ↔ entry ∈ right := fun entry => by
    rw [← find?_eq_some_iff hleft, ← find?_eq_some_iff hright, h]
  have irrefl : ∀ a b : κ × α, compare a.1 b.1 = .lt → ¬ compare b.1 a.1 = .lt := by
    intro a b hab hba
    rw [Std.OrientedOrd.eq_swap, hba] at hab
    simp at hab
  exact List.Perm.eq_of_pairwise (fun a b _ _ hab hba => absurd hba (irrefl a b hab))
    hleft hright
    ((List.perm_ext_iff_of_nodup (nodup_of_ascending hleft) (nodup_of_ascending hright)).2
      mem_iff)

end SortedEntries

/-! ## §2. Maps that carry the proof. -/

/-- A finite map: entries whose keys ascend strictly. -/
structure SortedMap (κ α : Type) [Ord κ] where
  /-- The entries in key order. -/
  entries : List (κ × α)
  /-- Keys ascend strictly, so each occurs once. -/
  ascending : SortedEntries.Ascending entries

namespace SortedMap

variable {κ α β : Type} [Ord κ]

instance [DecidableEq κ] [DecidableEq α] : DecidableEq (SortedMap κ α) := fun left right =>
  decidable_of_iff (left.entries = right.entries)
    ⟨fun h => by cases left; cases right; simp_all, fun h => h ▸ rfl⟩

/-- The map without entries. -/
def empty : SortedMap κ α := ⟨[], List.Pairwise.nil⟩

instance : EmptyCollection (SortedMap κ α) := ⟨empty⟩

instance : Inhabited (SortedMap κ α) := ⟨empty⟩

/-- The value under a key. -/
def find? (map : SortedMap κ α) (key : κ) : Option α :=
  SortedEntries.find? key map.entries

/-- Is there an entry under this key? -/
def contains (map : SortedMap κ α) (key : κ) : Bool :=
  (map.find? key).isSome

/-- Keys in ascending order. -/
def keys (map : SortedMap κ α) : List κ := map.entries.map (·.1)

/-- Values in the order of their keys. -/
def values (map : SortedMap κ α) : List α := map.entries.map (·.2)

/-- How many entries there are. -/
def size (map : SortedMap κ α) : Nat := map.entries.length

/-- Is there no entry at all? -/
def isEmpty (map : SortedMap κ α) : Bool := map.entries.isEmpty

/-- The map without the entry under `key`. -/
def erase (map : SortedMap κ α) (key : κ) : SortedMap κ α :=
  ⟨SortedEntries.erase key map.entries, SortedEntries.ascending_erase key map.ascending⟩

/-- The same keys with changed values. -/
def mapValues (f : α → β) (map : SortedMap κ α) : SortedMap κ β :=
  ⟨map.entries.map (fun entry => (entry.1, f entry.2)),
    SortedEntries.ascending_map_value f map.ascending⟩

variable [Std.TransOrd κ]

/-- The map with `key ↦ value`, whatever stood under `key` before. -/
def insert (map : SortedMap κ α) (key : κ) (value : α) : SortedMap κ α :=
  ⟨SortedEntries.insert key value map.entries,
    SortedEntries.ascending_insert key value map.ascending⟩

/-- The map of a list of pairs; of two with the same key the later one stays. -/
def ofList (pairs : List (κ × α)) : SortedMap κ α :=
  ⟨SortedEntries.ofList pairs, SortedEntries.ascending_ofList pairs⟩

variable [Std.LawfulEqOrd κ]

omit [Std.TransOrd κ] [Std.LawfulEqOrd κ] in
@[simp] theorem find?_empty (key : κ) : (empty : SortedMap κ α).find? key = none := rfl

theorem find?_insert (map : SortedMap κ α) (key sought : κ) (value : α) :
    (map.insert key value).find? sought
      = if compare sought key = .eq then some value else map.find? sought :=
  SortedEntries.find?_insert key sought value map.entries

@[simp] theorem find?_insert_self (map : SortedMap κ α) (key : κ) (value : α) :
    (map.insert key value).find? key = some value := by
  simp [find?_insert]

theorem find?_insert_of_ne (map : SortedMap κ α) {key sought : κ} (value : α)
    (h : sought ≠ key) : (map.insert key value).find? sought = map.find? sought := by
  rw [find?_insert, if_neg (fun heq => h (Std.LawfulEqCmp.eq_of_compare heq))]

omit [Std.TransOrd κ] in
theorem find?_erase (map : SortedMap κ α) (key sought : κ) :
    (map.erase key).find? sought
      = if compare sought key = .eq then none else map.find? sought :=
  SortedEntries.find?_erase key sought map.entries

theorem find?_eq_some_iff {map : SortedMap κ α} {key : κ} {value : α} :
    map.find? key = some value ↔ (key, value) ∈ map.entries :=
  SortedEntries.find?_eq_some_iff map.ascending

/-- Look-ups determine the map. -/
theorem ext_find? {left right : SortedMap κ α} (h : ∀ key, left.find? key = right.find? key) :
    left = right := by
  have := SortedEntries.ext_find? left.ascending right.ascending h
  cases left; cases right; simp_all

end SortedMap

/-! ## §3. Sets. -/

/-- A finite set whose elements are listed in ascending order. -/
abbrev SortedSet (κ : Type) [Ord κ] := SortedMap κ Unit

namespace SortedSet

variable {κ : Type} [Ord κ]

/-- Elements in ascending order. -/
def toList (set : SortedSet κ) : List κ := SortedMap.keys set

/-- The set without `element`. -/
def remove (set : SortedSet κ) (element : κ) : SortedSet κ := SortedMap.erase set element

variable [Std.TransOrd κ]

/-- The set with `element`. -/
def add (set : SortedSet κ) (element : κ) : SortedSet κ := SortedMap.insert set element ()

/-- The elements of either set. -/
def union (left right : SortedSet κ) : SortedSet κ :=
  right.toList.foldl add left

/-- The set of the elements of a list. -/
def ofList (elements : List κ) : SortedSet κ :=
  SortedMap.ofList (elements.map (fun element => (element, ())))

end SortedSet

end PropertyGraph
