/-
  PropertyGraph.Proofs.Value.SavedForm
  ────────────────────────────────────
  **WHAT A VALUE COMES BACK AS.**

  JSON has no form for a float that is not finite, so it comes back as null;
  everything else comes back as it was, at every depth.  `savedForm` is that
  change alone, and reading the JSON form of a value gives it
  (`ofJson_toJson`).  A value and its saved form have the same JSON form
  (`toJson_savedForm`), so saving once more changes nothing.
-/
import PropertyGraph.Proofs.Json.RoundTrip
import PropertyGraph.Proofs.SortedMap.Membership
import PropertyGraph.Value.Codec

namespace PropertyGraph

/-! ## §1. The saved form. -/

namespace Value

mutual

/-- The value with null for every float that is not finite. -/
def savedForm : Value → Value
  | .null => .null
  | .bool b => .bool b
  | .int i => .int i
  | .float (.finite x) => .float (.finite x)
  | .float .nan => .null
  | .float (.infinite _) => .null
  | .str s => .str s
  | .list items => .list (savedItems items)
  | .map entries => .map (savedEntries entries)

/-- Each item in its saved form. -/
def savedItems : List Value → List Value
  | [] => []
  | item :: items => savedForm item :: savedItems items

/-- The same keys with the saved forms of the values. -/
def savedEntries : List (String × Value) → List (String × Value)
  | [] => []
  | (key, value) :: entries => (key, savedForm value) :: savedEntries entries

end

mutual

/-- Every finite float inside, at any depth, satisfies `p`. -/
def AllFloats (p : Finite64 → Prop) : Value → Prop
  | .float (.finite x) => p x
  | .null | .bool _ | .int _ | .str _ | .float .nan | .float (.infinite _) => True
  | .list items => AllFloatsItems p items
  | .map entries => AllFloatsEntries p entries

/-- So in every item. -/
def AllFloatsItems (p : Finite64 → Prop) : List Value → Prop
  | [] => True
  | item :: items => AllFloats p item ∧ AllFloatsItems p items

/-- So in the value of every entry. -/
def AllFloatsEntries (p : Finite64 → Prop) : List (String × Value) → Prop
  | [] => True
  | (_, value) :: entries => AllFloats p value ∧ AllFloatsEntries p entries

end

section

variable {p : Finite64 → Prop} [DecidablePred p]

mutual

/-- The floats of a value can be gone through. -/
def decidableAllFloats : ∀ value : Value, Decidable (value.AllFloats p)
  | .float (.finite x) => inferInstanceAs (Decidable (p x))
  | .null | .bool _ | .int _ | .str _ | .float .nan | .float (.infinite _) => .isTrue trivial
  | .list items => decidableAllFloatsItems items
  | .map entries => decidableAllFloatsEntries entries

/-- Those of items. -/
def decidableAllFloatsItems : ∀ items : List Value, Decidable (AllFloatsItems p items)
  | [] => .isTrue trivial
  | item :: items =>
    @instDecidableAnd _ _ (decidableAllFloats item) (decidableAllFloatsItems items)

/-- Those of entries. -/
def decidableAllFloatsEntries :
    ∀ entries : List (String × Value), Decidable (AllFloatsEntries p entries)
  | [] => .isTrue trivial
  | (_, value) :: entries =>
    @instDecidableAnd _ _ (decidableAllFloats value) (decidableAllFloatsEntries entries)

end

instance (value : Value) : Decidable (value.AllFloats p) := decidableAllFloats value

end

/-! ## §2. Order of keys. -/

theorem savedEntries_eq_map (entries : List (String × Value)) :
    savedEntries entries = entries.map (fun entry => (entry.1, entry.2.savedForm)) := by
  induction entries with
  | nil => rfl
  | cons entry rest ih =>
    obtain ⟨key, value⟩ := entry
    rw [savedEntries, ih]
    rfl

theorem entriesToJson_eq_map (entries : List (String × Value)) :
    entriesToJson entries = entries.map (fun entry => (entry.1, entry.2.toJson)) := by
  induction entries with
  | nil => rfl
  | cons entry rest ih => rw [entriesToJson, ih, List.map_cons]

theorem ascending_savedEntries {entries : List (String × Value)}
    (h : SortedEntries.Ascending entries) : SortedEntries.Ascending (savedEntries entries) := by
  rw [savedEntries_eq_map]
  exact SortedEntries.ascending_map_value savedForm h

mutual

theorem normal_savedForm : ∀ {value : Value}, value.Normal → value.savedForm.Normal
  | .null, _ => trivial
  | .bool _, _ => trivial
  | .int _, _ => trivial
  | .float (.finite _), _ => trivial
  | .float .nan, _ => trivial
  | .float (.infinite _), _ => trivial
  | .str _, _ => trivial
  | .list _, h => normalItems_savedItems h
  | .map _, h => ⟨ascending_savedEntries h.1, normalEntries_savedEntries h.2⟩

theorem normalItems_savedItems : ∀ {items : List Value}, NormalItems items →
    NormalItems (savedItems items)
  | [], _ => trivial
  | _ :: _, h => ⟨normal_savedForm h.1, normalItems_savedItems h.2⟩

theorem normalEntries_savedEntries : ∀ {entries : List (String × Value)},
    NormalEntries entries → NormalEntries (savedEntries entries)
  | [], _ => trivial
  | (_, _) :: _, h => ⟨normal_savedForm h.1, normalEntries_savedEntries h.2⟩

end

mutual

/-- A value in key order is its own normal form. -/
theorem normalize_of_normal : ∀ {value : Value}, value.Normal → value.normalize = value
  | .null, _ => rfl
  | .bool _, _ => rfl
  | .int _, _ => rfl
  | .float _, _ => rfl
  | .str _, _ => rfl
  | .list items, h => by rw [normalize, normalizeItems_of_normal h]
  | .map entries, h => by
    rw [normalize, normalizeEntries_of_normal h.2, SortedEntries.ofList_of_ascending h.1]

theorem normalizeItems_of_normal : ∀ {items : List Value}, NormalItems items →
    normalizeItems items = items
  | [], _ => rfl
  | _ :: _, h => by rw [normalizeItems, normalize_of_normal h.1, normalizeItems_of_normal h.2]

theorem normalizeEntries_of_normal : ∀ {entries : List (String × Value)},
    NormalEntries entries → normalizeEntries entries = entries
  | [], _ => rfl
  | (_, _) :: _, h => by
    rw [normalizeEntries, normalize_of_normal h.1, normalizeEntries_of_normal h.2]

end

/-! ## §3. Through JSON and back. -/

theorem ofInt_toInt (i : Int64) : ofInt i.toInt = .int i := by
  unfold ofInt
  rw [if_pos ⟨i.minValue_le_toInt, i.toInt_le⟩, Int64.ofInt_toInt]

mutual

/-- **Reading the JSON form of a value gives its saved form.** -/
theorem ofJson_toJson : ∀ {value : Value}, value.Normal → ofJson value.toJson = value.savedForm
  | .null, _ => rfl
  | .bool _, _ => rfl
  | .int i, _ => ofInt_toInt i
  | .float (.finite _), _ => rfl
  | .float .nan, _ => rfl
  | .float (.infinite _), _ => rfl
  | .str _, _ => rfl
  | .list items, h => by rw [toJson, ofJson, itemsOfJson_itemsToJson h, savedForm]
  | .map entries, h => by
    rw [toJson, ofJson, entriesOfJson_entriesToJson h.2,
      SortedEntries.ofList_of_ascending (ascending_savedEntries h.1), savedForm]

theorem itemsOfJson_itemsToJson : ∀ {items : List Value}, NormalItems items →
    itemsOfJson (itemsToJson items) = savedItems items
  | [], _ => rfl
  | _ :: _, h => by
    rw [itemsToJson, itemsOfJson, ofJson_toJson h.1, itemsOfJson_itemsToJson h.2, savedItems]

theorem entriesOfJson_entriesToJson : ∀ {entries : List (String × Value)},
    NormalEntries entries → entriesOfJson (entriesToJson entries) = savedEntries entries
  | [], _ => rfl
  | (_, _) :: _, h => by
    rw [entriesToJson, entriesOfJson, ofJson_toJson h.1, entriesOfJson_entriesToJson h.2,
      savedEntries]

end

mutual

/-- A value and its saved form are written alike. -/
theorem toJson_savedForm : ∀ value : Value, value.savedForm.toJson = value.toJson
  | .null => rfl
  | .bool _ => rfl
  | .int _ => rfl
  | .float (.finite _) => rfl
  | .float .nan => rfl
  | .float (.infinite _) => rfl
  | .str _ => rfl
  | .list items => by rw [savedForm, toJson, itemsToJson_savedItems, toJson]
  | .map entries => by rw [savedForm, toJson, entriesToJson_savedEntries, toJson]

theorem itemsToJson_savedItems : ∀ items : List Value,
    itemsToJson (savedItems items) = itemsToJson items
  | [] => rfl
  | item :: items => by
    rw [savedItems, itemsToJson, toJson_savedForm item, itemsToJson_savedItems items, itemsToJson]

theorem entriesToJson_savedEntries : ∀ entries : List (String × Value),
    entriesToJson (savedEntries entries) = entriesToJson entries
  | [] => rfl
  | (key, value) :: entries => by
    rw [savedEntries, entriesToJson, toJson_savedForm value, entriesToJson_savedEntries entries,
      entriesToJson]

end

theorem fitsInt_toInt (i : Int64) : Json.FitsInt i.toInt := by
  have hlt := i.toInt_lt
  refine ⟨i.minValue_le_toInt, ?_⟩
  have hsize : (UInt64.size : Int) = 2 ^ 64 := rfl
  omega

mutual

/-- A value is written legibly if its floats are. -/
theorem legible_toJson : ∀ {value : Value}, value.AllFloats Json.ReadsBack →
    value.toJson.Legible
  | .null, _ => trivial
  | .bool _, _ => trivial
  | .int i, _ => fitsInt_toInt i
  | .float (.finite _), h => h
  | .float .nan, _ => trivial
  | .float (.infinite _), _ => trivial
  | .str _, _ => trivial
  | .list _, h => legibleItems_itemsToJson h
  | .map _, h => legibleMembers_entriesToJson h

theorem legibleItems_itemsToJson : ∀ {items : List Value},
    AllFloatsItems Json.ReadsBack items → Json.LegibleItems (itemsToJson items)
  | [], _ => trivial
  | _ :: _, h => ⟨legible_toJson h.1, legibleItems_itemsToJson h.2⟩

theorem legibleMembers_entriesToJson : ∀ {entries : List (String × Value)},
    AllFloatsEntries Json.ReadsBack entries → Json.LegibleMembers (entriesToJson entries)
  | [], _ => trivial
  | (_, _) :: _, h => ⟨legible_toJson h.1, legibleMembers_entriesToJson h.2⟩

end

end Value

/-! ## §4. Properties. -/

namespace PropertyMap

/-- The properties with null for every float that is not finite. -/
def savedForm (properties : PropertyMap) : PropertyMap :=
  ⟨Value.savedEntries properties.entries, Value.normal_savedForm properties.normal⟩

/-- Every finite float in the properties satisfies `p`. -/
def AllFloats (p : Finite64 → Prop) (properties : PropertyMap) : Prop :=
  (Value.map properties.entries).AllFloats p

instance {p : Finite64 → Prop} [DecidablePred p] (properties : PropertyMap) :
    Decidable (properties.AllFloats p) :=
  inferInstanceAs (Decidable ((Value.map properties.entries).AllFloats p))

/-- **Reading written properties gives their saved form.** -/
theorem ofMembers_entriesToJson (properties : PropertyMap) :
    ofMembers (Value.entriesToJson properties.entries) = properties.savedForm := by
  have hentries := Value.entriesOfJson_entriesToJson properties.normal.2
  have hnormal := Value.normal_savedForm properties.normal
  unfold ofMembers ofList savedForm
  congr 1
  rw [hentries, Value.normalizeEntries_of_normal hnormal.2,
    SortedEntries.ofList_of_ascending hnormal.1]

theorem toJson_savedForm (properties : PropertyMap) :
    properties.savedForm.toJson = properties.toJson :=
  congrArg Json.object (Value.entriesToJson_savedEntries properties.entries)

theorem legible_toJson {properties : PropertyMap} (h : properties.AllFloats Json.ReadsBack) :
    properties.toJson.Legible :=
  Value.legibleMembers_entriesToJson h

end PropertyMap

end PropertyGraph
