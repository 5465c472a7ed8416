/-
  PropertyGraph.Proofs.Value.Alike
  ────────────────────────────────
  **WHICH VALUES ARE ALIKE THEMSELVES.**

  A NaN equals nothing, itself included, and a list or map with one inside is
  not alike itself either.  It is the only exception: a value is alike itself
  exactly if it has no NaN at any depth (`Value.alike_self_iff`), that is, if
  none is `Inside`, which goes down through lists and maps (`Value.noNaN_iff`).
-/
import PropertyGraph.Value.Equality

namespace PropertyGraph

namespace Value

/-! ## §1. Values without NaN. -/

mutual

/-- No float inside, at any depth, is a NaN. -/
def NoNaN : Value → Prop
  | .float x => x ≠ .nan
  | .null | .bool _ | .int _ | .str _ => True
  | .list items => NoNaNItems items
  | .map entries => NoNaNEntries entries

/-- None in any item. -/
def NoNaNItems : List Value → Prop
  | [] => True
  | item :: items => NoNaN item ∧ NoNaNItems items

/-- None in the value of any entry. -/
def NoNaNEntries : List (String × Value) → Prop
  | [] => True
  | (_, value) :: entries => NoNaN value ∧ NoNaNEntries entries

end

theorem noNaN_of_mem_items {items : List Value} (h : NoNaNItems items) {item : Value}
    (hmem : item ∈ items) : item.NoNaN := by
  induction items with
  | nil => cases hmem
  | cons first rest ih =>
    rcases List.mem_cons.1 hmem with rfl | hrest
    · exact h.1
    · exact ih h.2 hrest

theorem noNaN_of_mem_entries {entries : List (String × Value)} (h : NoNaNEntries entries)
    {key : String} {value : Value} (hmem : (key, value) ∈ entries) : value.NoNaN := by
  induction entries with
  | nil => cases hmem
  | cons entry rest ih =>
    obtain ⟨first, firstValue⟩ := entry
    rcases List.mem_cons.1 hmem with heq | hrest
    · obtain ⟨-, rfl⟩ := Prod.mk.inj heq
      exact h.1
    · exact ih h.2 hrest

/-- A value, or one that an item or entry of it has inside. -/
inductive Inside (part : Value) : Value → Prop where
  | self : Inside part part
  | item {item : Value} {items : List Value} (member : item ∈ items) (deeper : Inside part item) :
      Inside part (.list items)
  | entry {key : String} {value : Value} {entries : List (String × Value)}
      (member : (key, value) ∈ entries) (deeper : Inside part value) : Inside part (.map entries)

/-- A NaN inside is found on the way down. -/
theorem not_noNaN_of_inside {value : Value} (h : Inside (.float .nan) value) : ¬ value.NoNaN := by
  induction h with
  | self => exact fun hnone => hnone rfl
  | item member _ ih => exact fun hnone => ih (noNaN_of_mem_items hnone member)
  | entry member _ ih => exact fun hnone => ih (noNaN_of_mem_entries hnone member)

mutual

theorem noNaN_of_not_inside : ∀ {value : Value}, ¬ Inside (.float .nan) value → value.NoNaN
  | .null, _ => trivial
  | .bool _, _ => trivial
  | .int _, _ => trivial
  | .str _, _ => trivial
  | .float _, h => fun heq => h (heq ▸ .self)
  | .list _, h => noNaNItems_of_not_inside (fun _ hmem hin => h (.item hmem hin))
  | .map _, h => noNaNEntries_of_not_inside (fun _ hmem hin => h (.entry hmem hin))

theorem noNaNItems_of_not_inside : ∀ {items : List Value},
    (∀ item ∈ items, ¬ Inside (.float .nan) item) → NoNaNItems items
  | [], _ => trivial
  | _ :: _, h => ⟨noNaN_of_not_inside (h _ List.mem_cons_self),
      noNaNItems_of_not_inside (fun _ hmem => h _ (List.mem_cons_of_mem _ hmem))⟩

theorem noNaNEntries_of_not_inside : ∀ {entries : List (String × Value)},
    (∀ entry ∈ entries, ¬ Inside (.float .nan) entry.2) → NoNaNEntries entries
  | [], _ => trivial
  | (_, _) :: _, h => ⟨noNaN_of_not_inside (h _ List.mem_cons_self),
      noNaNEntries_of_not_inside (fun _ hmem => h _ (List.mem_cons_of_mem _ hmem))⟩

end

theorem noNaN_iff {value : Value} : value.NoNaN ↔ ¬ Inside (.float .nan) value :=
  ⟨fun hnone hin => not_noNaN_of_inside hin hnone, noNaN_of_not_inside⟩

/-! ## §2. Alike itself. -/

mutual

/-- **A value is alike itself** exactly if it has no NaN. -/
theorem alike_self_iff : ∀ value : Value, value.alike value = true ↔ value.NoNaN
  | .null => by simp only [alike, NoNaN]
  | .bool b => by simp only [alike, NoNaN, beq_self_eq_true]
  | .int i => by simp only [alike, NoNaN, beq_self_eq_true]
  | .str s => by simp only [alike, NoNaN, beq_self_eq_true]
  | .float x => by
    rw [alike, NoNaN]
    exact x.sameNumber_self_iff
  | .list items => by
    rw [alike, NoNaN]
    exact alikeItems_self_iff items
  | .map entries => by
    rw [alike, NoNaN]
    exact alikeEntries_self_iff entries

theorem alikeItems_self_iff : ∀ items : List Value,
    alikeItems items items = true ↔ NoNaNItems items
  | [] => by simp only [alikeItems, NoNaNItems]
  | item :: items => by
    rw [alikeItems, NoNaNItems, Bool.and_eq_true, alike_self_iff item, alikeItems_self_iff items]

theorem alikeEntries_self_iff : ∀ entries : List (String × Value),
    alikeEntries entries entries = true ↔ NoNaNEntries entries
  | [] => by simp only [alikeEntries, NoNaNEntries]
  | (key, value) :: entries => by
    rw [alikeEntries, NoNaNEntries, Bool.and_eq_true, Bool.and_eq_true, alike_self_iff value,
      alikeEntries_self_iff entries, and_iff_right (beq_self_eq_true key)]

end

end Value

/-! ## §3. Properties. -/

namespace PropertyMap

/-- No property has a NaN inside. -/
def NoNaN (properties : PropertyMap) : Prop := Value.NoNaNEntries properties.entries

instance (properties : PropertyMap) : Decidable properties.NoNaN :=
  decidable_of_iff _ (Value.alikeEntries_self_iff properties.entries)

/-- Each property without NaN is alike itself. -/
theorem alike_of_find? {properties : PropertyMap} (h : properties.NoNaN) {key : String}
    {value : Value} (hfind : properties.find? key = some value) : value.alike value = true :=
  (Value.alike_self_iff value).2 (Value.noNaN_of_mem_entries h (SortedEntries.mem_of_find? hfind))

end PropertyMap

end PropertyGraph
