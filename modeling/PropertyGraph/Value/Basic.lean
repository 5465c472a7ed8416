/-
  PropertyGraph.Value.Basic
  ─────────────────────────
  **PROPERTY VALUES.**

  A property of a node or relationship is a scalar — null, boolean, 64-bit
  integer, float, string — or a list or a map of further values.  Maps are
  kept in key order at every level (`Value.Normal`), so one map has one form.
  A `PropertyMap`, the properties of one entity, carries that as a proof;
  `PropertyMap.ofList` brings any pairs into this form, and of a repeated
  key the last pair counts.
-/
import PropertyGraph.SortedMap.Basic
import PropertyGraph.Number.Binary64

namespace PropertyGraph

/-- A property value. -/
inductive Value where
  | null
  | bool (b : Bool)
  | int (i : Int64)
  | float (x : Binary64)
  | str (s : String)
  | list (items : List Value)
  | map (entries : List (String × Value))

namespace Value

instance : Inhabited Value := ⟨.null⟩

/-! ## §1. Scalars. -/

/-- The string, if the value is one. -/
def str? : Value → Option String
  | .str s => some s
  | _ => none

/-- The integer, if the value is one. -/
def int? : Value → Option Int64
  | .int i => some i
  | _ => none

/-- The float, if the value is one. -/
def float? : Value → Option Binary64
  | .float x => some x
  | _ => none

/-- The boolean, if the value is one. -/
def bool? : Value → Option Bool
  | .bool b => some b
  | _ => none

/-- The name of the kind of a value. -/
def typeName : Value → String
  | .null => "Null"
  | .bool _ => "Boolean"
  | .int _ => "Integer"
  | .float _ => "Float"
  | .str _ => "String"
  | .list _ => "Array"
  | .map _ => "Map"

/-! ## §2. Normal form. -/

mutual

/-- Every map inside, at any depth, lists its keys in ascending order. -/
def Normal : Value → Prop
  | .list items => NormalItems items
  | .map entries => SortedEntries.Ascending entries ∧ NormalEntries entries
  | .null | .bool _ | .int _ | .float _ | .str _ => True

/-- Every item is normal. -/
def NormalItems : List Value → Prop
  | [] => True
  | item :: rest => Normal item ∧ NormalItems rest

/-- Every entry has a normal value. -/
def NormalEntries : List (String × Value) → Prop
  | [] => True
  | (_, value) :: rest => Normal value ∧ NormalEntries rest

end

mutual

/-- The value with every map inside in key order. -/
def normalize : Value → Value
  | .list items => .list (normalizeItems items)
  | .map entries => .map (SortedEntries.ofList (normalizeEntries entries))
  | .null => .null
  | .bool b => .bool b
  | .int i => .int i
  | .float x => .float x
  | .str s => .str s

/-- Each item in normal order. -/
def normalizeItems : List Value → List Value
  | [] => []
  | item :: rest => normalize item :: normalizeItems rest

/-- Each entry with its value in key order. -/
def normalizeEntries : List (String × Value) → List (String × Value)
  | [] => []
  | (key, value) :: rest => (key, normalize value) :: normalizeEntries rest

end

theorem normalEntries_iff {entries : List (String × Value)} :
    NormalEntries entries ↔ ∀ entry ∈ entries, entry.2.Normal := by
  induction entries with
  | nil => simp [NormalEntries]
  | cons entry rest ih => obtain ⟨key, value⟩ := entry; simp [NormalEntries, ih]

theorem normalEntries_insert {key : String} {value : Value} {entries : List (String × Value)}
    (hv : value.Normal) (h : NormalEntries entries) :
    NormalEntries (SortedEntries.insert key value entries) := by
  rw [normalEntries_iff] at h ⊢
  intro entry hentry
  rcases SortedEntries.mem_insert hentry with rfl | hmem
  · exact hv
  · exact h entry hmem

theorem normalEntries_foldl_insert (pairs : List (String × Value))
    {entries : List (String × Value)} (hp : NormalEntries pairs) (h : NormalEntries entries) :
    NormalEntries
      (pairs.foldl (fun entries pair => SortedEntries.insert pair.1 pair.2 entries) entries) := by
  induction pairs generalizing entries with
  | nil => exact h
  | cons pair rest ih =>
    obtain ⟨key, value⟩ := pair
    exact ih hp.2 (normalEntries_insert hp.1 h)

/-- A map made from normal values is normal. -/
theorem normal_map_ofList {pairs : List (String × Value)} (h : NormalEntries pairs) :
    (Value.map (SortedEntries.ofList pairs)).Normal :=
  ⟨SortedEntries.ascending_ofList pairs, normalEntries_foldl_insert pairs h trivial⟩

mutual

/-- Bringing a value into key order succeeds. -/
theorem normal_normalize : ∀ value : Value, value.normalize.Normal
  | .list items => normalItems_normalizeItems items
  | .map entries => normal_map_ofList (normalEntries_normalizeEntries entries)
  | .null | .bool _ | .int _ | .float _ | .str _ => trivial

theorem normalItems_normalizeItems : ∀ items : List Value, NormalItems (normalizeItems items)
  | [] => trivial
  | item :: rest => ⟨normal_normalize item, normalItems_normalizeItems rest⟩

theorem normalEntries_normalizeEntries :
    ∀ entries : List (String × Value), NormalEntries (normalizeEntries entries)
  | [] => trivial
  | (_, value) :: rest => ⟨normal_normalize value, normalEntries_normalizeEntries rest⟩

end

end Value

/-! ## §3. The properties of an entity. -/

/-- Properties by key, in key order at every level. -/
structure PropertyMap where
  /-- The properties in key order. -/
  entries : List (String × Value)
  /-- Keys ascend, here and in every map inside. -/
  normal : (Value.map entries).Normal

namespace PropertyMap

/-- No properties. -/
def empty : PropertyMap := ⟨[], List.Pairwise.nil, trivial⟩

instance : Inhabited PropertyMap := ⟨empty⟩

instance : EmptyCollection PropertyMap := ⟨empty⟩

/-- The properties of a list of pairs; of a repeated key the last counts. -/
def ofList (pairs : List (String × Value)) : PropertyMap :=
  ⟨SortedEntries.ofList (Value.normalizeEntries pairs),
    Value.normal_map_ofList (Value.normalEntries_normalizeEntries pairs)⟩

/-- The value under a key. -/
def find? (properties : PropertyMap) (key : String) : Option Value :=
  SortedEntries.find? key properties.entries

/-- How many properties there are. -/
def size (properties : PropertyMap) : Nat := properties.entries.length

end PropertyMap

end PropertyGraph
