/-
  PropertyGraph.Proofs.Session.Kept
  ─────────────────────────────────
  **DISTINCT ROWS ARE THE FIRST OF THEIR KIND.**

  Rows are the same if they show the same data in the same columns, in
  whatever order (`Row.Same`).  RETURN DISTINCT compares texts instead, and
  that comes to the same (`Row.key_eq_iff_same`).  So it keeps the first row
  of each kind (`Row.distinct_keepsFirst`): of several no two are the same,
  each row is the same as a kept one, and what is kept is kept again.
-/
import PropertyGraph.Proofs.Json.SameData
import PropertyGraph.Proofs.Session.Rows

namespace PropertyGraph

/-! ## §1. The first of its kind, for any kinds. -/

section

variable {α : Type} {same : α → α → Prop} [DecidableRel same] {items : List α}

theorem filterMap_range_getElem? (items : List α) :
    (List.range items.length).filterMap (fun place => items[place]?) = items := by
  induction items with
  | nil => rfl
  | cons item rest ih =>
    rw [List.length_cons, List.range_succ_eq_map, List.filterMap_cons, List.filterMap_map]
    exact congrArg (item :: ·) ih

/-- The firsts stand at the places of firsts. -/
theorem firsts_eq_filterMap : firsts same items
    = ((List.range items.length).filter (fun place => IsFirst same items place)).filterMap
        (fun place => items[place]?) := by
  rw [List.filterMap_filter]
  unfold firsts
  simp only [decide_eq_true_eq]

theorem firsts_sublist : (firsts same items).Sublist items := by
  have hsub := (List.filter_sublist (p := fun place => IsFirst same items place)
    (l := List.range items.length)).filterMap (fun place => items[place]?)
  rwa [← firsts_eq_filterMap, filterMap_range_getElem?] at hsub

/-- Of two firsts the later one is no second. -/
theorem pairwise_firsts : (firsts same items).Pairwise (fun a b => ¬ same a b) := by
  rw [firsts_eq_filterMap, List.pairwise_filterMap]
  refine (List.pairwise_lt_range.sublist List.filter_sublist).imp_of_mem ?_
  intro before place hbefore hplace hlt a ha b hb
  have hfirst : IsFirst same items place := by
    simpa using (List.mem_filter.1 hplace).2
  exact hfirst before hlt a ha b hb

theorem mem_firsts {item : α} :
    item ∈ firsts same items ↔ ∃ place, IsFirst same items place ∧ items[place]? = some item := by
  rw [firsts_eq_filterMap, List.mem_filterMap]
  constructor
  · rintro ⟨place, hplace, hitem⟩
    exact ⟨place, by simpa using (List.mem_filter.1 hplace).2, hitem⟩
  · rintro ⟨place, hfirst, hitem⟩
    have hlt : place < items.length := (List.getElem?_eq_some_iff.1 hitem).1
    exact ⟨place, List.mem_filter.2 ⟨List.mem_range.2 hlt, by simpa using hfirst⟩, hitem⟩

/-- **No kind is lost**: from any item one comes to a first of its kind. -/
theorem exists_first (hrefl : ∀ a, same a a) (htrans : ∀ a b c, same a b → same b c → same a c)
    {item : α} (h : item ∈ items) : ∃ kept ∈ firsts same items, same kept item := by
  obtain ⟨place, hplace⟩ := List.mem_iff_getElem?.1 h
  clear h
  induction place using Nat.strongRecOn generalizing item with
  | ind place ih =>
    by_cases hfirst : IsFirst same items place
    · exact ⟨item, mem_firsts.2 ⟨place, hfirst, hplace⟩, hrefl item⟩
    -- an earlier one is the same, and before that one there is a first
    · simp only [IsFirst, not_forall, not_not] at hfirst
      obtain ⟨before, hlt, earlier, hearlier, other, hother, hsame⟩ := hfirst
      obtain rfl : other = item := Option.some.inj (hother.symm.trans hplace)
      obtain ⟨kept, hkept, hfound⟩ := ih before hlt hearlier
      exact ⟨kept, hkept, htrans _ _ _ hfound hsame⟩

/-- Where no two are the same, all are firsts. -/
theorem firsts_of_pairwise (h : items.Pairwise (fun a b => ¬ same a b)) :
    firsts same items = items := by
  have hall : ∀ place ∈ List.range items.length, decide (IsFirst same items place) = true := by
    intro place _
    rw [decide_eq_true_eq]
    intro before hlt earlier hearlier item hitem
    obtain ⟨hb, rfl⟩ := List.getElem?_eq_some_iff.1 hearlier
    obtain ⟨hp, rfl⟩ := List.getElem?_eq_some_iff.1 hitem
    exact List.pairwise_iff_getElem.1 h before place hb hp hlt
  rw [firsts_eq_filterMap, List.filter_eq_self.2 hall, filterMap_range_getElem?]

end

/-! ## §2. Rows. -/

namespace Row

/-- The same data in the same columns, in whatever order. -/
def Same (row other : Row) : Prop := Json.SameData row.toJson other.toJson

/-- **Rows have the same text** exactly if they are the same. -/
theorem key_eq_iff_same {row other : Row} : row.key = other.key ↔ row.Same other :=
  Json.text_normalize_eq_iff

instance : DecidableRel Same := fun row other =>
  decidable_of_iff (row.key = other.key) key_eq_iff_same

theorem same_refl (row : Row) : row.Same row := key_eq_iff_same.1 rfl

theorem same_trans (a b c : Row) (h : a.Same b) (h' : b.Same c) : a.Same c :=
  key_eq_iff_same.1 ((key_eq_iff_same.2 h).trans (key_eq_iff_same.2 h'))

theorem distinct_eq_firsts_same (rows : List Row) : distinct rows = firsts Same rows := by
  have hmap : firsts Same (rows.map id)
      = (firsts (fun a b : Row => a.key = b.key) rows).map id :=
    firsts_map (fun _ _ _ _ => key_eq_iff_same.symm)
  rw [List.map_id, List.map_id] at hmap
  rw [distinct_eq_firsts, hmap]

/-- **RETURN DISTINCT keeps the first row of each kind.**  Rows have the same text
exactly if they show the same data in the same columns, where an integer is no
float and the two zeros are two floats.  What is kept are the rows before which
there is no same one, in order: no two are the same, each row is the same as a
kept one, rows of which no two are the same are all kept, and doing it again
changes nothing. -/
theorem distinct_keepsFirst (rows : List Row) :
    (∀ row other : Row, row.key = other.key ↔ row.Same other)
      ∧ (∀ (i : Int) (x : Finite64), ¬ Json.SameData (.int i) (.float x))
      ∧ ¬ Json.SameData (.float (Finite64.zero false)) (.float (Finite64.zero true))
      ∧ distinct rows = firsts Same rows
      ∧ (distinct rows).Sublist rows
      ∧ (distinct rows).Pairwise (fun row other => ¬ row.Same other)
      ∧ (∀ row ∈ rows, ∃ kept ∈ distinct rows, kept.Same row)
      ∧ (rows.Pairwise (fun row other => ¬ row.Same other) → distinct rows = rows)
      ∧ distinct (distinct rows) = distinct rows := by
  have hkept : (distinct rows).Pairwise (fun row other => ¬ row.Same other) := by
    rw [distinct_eq_firsts_same]
    exact pairwise_firsts
  refine ⟨fun _ _ => key_eq_iff_same, fun _ _ h => (by cases h), fun h => (by cases h),
    distinct_eq_firsts_same rows, ?_, hkept, fun row hrow => ?_, fun h => ?_, ?_⟩
  · rw [distinct_eq_firsts_same]
    exact firsts_sublist
  · rw [distinct_eq_firsts_same]
    exact exists_first same_refl same_trans hrow
  · rw [distinct_eq_firsts_same, firsts_of_pairwise h]
  · rw [distinct_eq_firsts_same (distinct rows), firsts_of_pairwise hkept]

/-- Rows with an integer, a float of the same value, and the two zeros. -/
def numberRows : List Row :=
  [⟨[("a", .int 0)]⟩, ⟨[("a", .float (Finite64.zero false))]⟩,
    ⟨[("a", .float (Finite64.zero true))]⟩]

theorem distinct_keepsFirst_numberRows :
    (numberRows.Pairwise (fun row other => ¬ row.Same other)) ∧ distinct numberRows = numberRows :=
  have hpairwise : numberRows.Pairwise (fun row other => ¬ row.Same other) := by decide +kernel
  ⟨hpairwise, (distinct_keepsFirst numberRows).2.2.2.2.2.2.2.1 hpairwise⟩

example :
    (distinct [⟨[("a", .object [("x", .int 1), ("y", .int 2)]), ("b", .null)]⟩,
      ⟨[("b", .null), ("a", .object [("y", .int 2), ("x", .int 1)])]⟩]).length = 1 := by
  decide +kernel

end Row

end PropertyGraph
