/-
  PropertyGraph.Proofs.Value.Codec
  ────────────────────────────────
  **VALUES AND THEIR JSON FORMS.**

  Three ways lead between values and JSON, and none is defined by another.

    * `toJson` makes the JSON form, which results show.
    * `write` writes a value straight into a file, with no JSON form in
      between.  What it writes is the text of the JSON form (`write_eq`).
    * `decode` reads a JSON value as the first kind of value that takes it:

          null, boolean, integer, float, string, list, map

      An integer is tried before a float, which takes whole numbers too, so
      one past 64 bits is a float; every JSON value is taken by some kind
      (`decode_eq`).

  There and back a value is in its saved form.  Back and there a JSON value is
  itself with its members in order, as long as its integers fit
  (`toJson_ofJson`).
-/
import PropertyGraph.Entity
import PropertyGraph.Files.Record
import PropertyGraph.Proofs.Json.SameData
import PropertyGraph.Proofs.Value.SavedForm

namespace PropertyGraph

/-! ## §1. JSON values as they are held. -/

namespace Json

mutual

/-- Every integer inside, at any depth, fits 64 bits. -/
def IntegersFit : Json → Prop
  | .int i => Int64.minValue.toInt ≤ i ∧ i ≤ Int64.maxValue.toInt
  | .array items => IntegersFitItems items
  | .object members => IntegersFitMembers members
  | .null | .bool _ | .float _ | .str _ => True

/-- Every one in any item. -/
def IntegersFitItems : List Json → Prop
  | [] => True
  | item :: items => IntegersFit item ∧ IntegersFitItems items

/-- Every one in the value of any member. -/
def IntegersFitMembers : List (String × Json) → Prop
  | [] => True
  | (_, value) :: members => IntegersFit value ∧ IntegersFitMembers members

end

mutual

/-- Every object inside, at any depth, has its members in the order of their
names and none of them twice. -/
def Ordered : Json → Prop
  | .array items => OrderedItems items
  | .object members => SortedEntries.Ascending members ∧ OrderedMembers members
  | .null | .bool _ | .int _ | .float _ | .str _ => True

/-- Every one in any item. -/
def OrderedItems : List Json → Prop
  | [] => True
  | item :: items => Ordered item ∧ OrderedItems items

/-- Every one in the value of any member. -/
def OrderedMembers : List (String × Json) → Prop
  | [] => True
  | (_, value) :: members => Ordered value ∧ OrderedMembers members

end

mutual

/-- What is in order is its own normal order. -/
theorem normalize_of_ordered : ∀ {j : Json}, j.Ordered → j.normalize = j
  | .null, _ => rfl
  | .bool _, _ => rfl
  | .int _, _ => rfl
  | .float _, _ => rfl
  | .str _, _ => rfl
  | .array items, h => by rw [normalize, normalizeItems_of_ordered h]
  | .object members, h => by
    rw [normalize, normalizeMembers_of_ordered h.2, SortedEntries.ofList_of_ascending h.1]

theorem normalizeItems_of_ordered : ∀ {items : List Json}, OrderedItems items →
    normalizeItems items = items
  | [], _ => rfl
  | _ :: _, h => by rw [normalizeItems, normalize_of_ordered h.1, normalizeItems_of_ordered h.2]

theorem normalizeMembers_of_ordered : ∀ {members : List (String × Json)},
    OrderedMembers members → normalizeMembers members = members
  | [], _ => rfl
  | (_, _) :: _, h => by
    rw [normalizeMembers, normalize_of_ordered h.1, normalizeMembers_of_ordered h.2]

end

/-- Among members without repeated names the last one is the only one. -/
theorem lastMember?_of_ascending {members : List (String × Json)}
    (h : SortedEntries.Ascending members) (name : String) :
    lastMember? name members = SortedEntries.find? name members := by
  cases hlast : lastMember? name members with
  | some value => exact (SortedEntries.find?_of_mem h (mem_of_lastMember? hlast)).symm
  | none =>
    cases hfind : SortedEntries.find? name members with
    | none => rfl
    | some value =>
      have hnone := List.find?_eq_none.1 (Option.map_eq_none_iff.1 hlast) (name, value)
        (List.mem_reverse.2 (SortedEntries.mem_of_find? hfind))
      exact absurd (beq_self_eq_true name) hnone

end Json

namespace Value

/-! ## §2. The first kind that takes it. -/

/-- Null is taken as null. -/
def readNull? : Json → Option Value
  | .null => some .null
  | _ => none

/-- A boolean. -/
def readBool? : Json → Option Value
  | .bool b => some (.bool b)
  | _ => none

/-- An integer that fits 64 bits. -/
def readInt? : Json → Option Value
  | .int i =>
    if Int64.minValue.toInt ≤ i ∧ i ≤ Int64.maxValue.toInt then some (.int (Int64.ofInt i)) else none
  | _ => none

/-- Any number: a whole one as the nearest float. -/
def readFloat? : Json → Option Value
  | .int i => some (.float (Binary64.ofInt i))
  | .float x => some (.float (.finite x))
  | _ => none

/-- A string. -/
def readStr? : Json → Option Value
  | .str s => some (.str s)
  | _ => none

mutual

/-- The value under the first kind that takes the JSON value, if one does. -/
def decode (j : Json) : Option Value :=
  readNull? j <|> readBool? j <|> readInt? j <|> readFloat? j <|> readStr? j
    <|> (match j with
      | .array items => (decodeItems items).map .list
      | _ => none)
    <|> (match j with
      | .object members =>
        (decodeMembers members).map (fun entries => .map (SortedEntries.ofList entries))
      | _ => none)

/-- A list is taken if each of its items is. -/
def decodeItems : List Json → Option (List Value)
  | [] => some []
  | item :: rest => do
    let value ← decode item
    let values ← decodeItems rest
    return value :: values

/-- A map is taken if the value of each member is. -/
def decodeMembers : List (String × Json) → Option (List (String × Value))
  | [] => some []
  | (name, j) :: rest => do
    let value ← decode j
    let entries ← decodeMembers rest
    return (name, value) :: entries

end

mutual

/-- **Every JSON value is taken**, and as what `ofJson` makes of it. -/
theorem decode_eq : ∀ j : Json, decode j = some (ofJson j)
  | .null => rfl
  | .bool _ => rfl
  | .int i => by
    unfold decode ofJson ofInt
    by_cases h : Int64.minValue.toInt ≤ i ∧ i ≤ Int64.maxValue.toInt
    · simp only [readNull?, readBool?, readInt?, if_pos h]
      rfl
    -- past 64 bits the next kind takes it
    · simp only [readNull?, readBool?, readInt?, if_neg h]
      rfl
  | .float _ => rfl
  | .str _ => rfl
  | .array items => by
    rw [decode, ofJson, decodeItems_eq items]
    rfl
  | .object members => by
    rw [decode, ofJson, decodeMembers_eq members]
    rfl

theorem decodeItems_eq : ∀ items : List Json, decodeItems items = some (itemsOfJson items)
  | [] => rfl
  | item :: rest => by
    rw [decodeItems, decode_eq item, decodeItems_eq rest]
    rfl

theorem decodeMembers_eq : ∀ members : List (String × Json),
    decodeMembers members = some (entriesOfJson members)
  | [] => rfl
  | (name, j) :: rest => by
    rw [decodeMembers, decode_eq j, decodeMembers_eq rest]
    rfl

end

mutual

/-- What is read has its maps in key order. -/
theorem normal_ofJson : ∀ j : Json, (ofJson j).Normal
  | .null => trivial
  | .bool _ => trivial
  | .int i => by
    rw [ofJson, ofInt]
    split <;> trivial
  | .float _ => trivial
  | .str _ => trivial
  | .array items => normalItems_itemsOfJson items
  | .object members => normal_map_ofList (normalEntries_entriesOfJson members)

theorem normalItems_itemsOfJson : ∀ items : List Json, NormalItems (itemsOfJson items)
  | [] => trivial
  | item :: rest => ⟨normal_ofJson item, normalItems_itemsOfJson rest⟩

theorem normalEntries_entriesOfJson : ∀ members : List (String × Json),
    NormalEntries (entriesOfJson members)
  | [] => trivial
  | (_, j) :: rest => ⟨normal_ofJson j, normalEntries_entriesOfJson rest⟩

end

/-- The properties of a record are the map that its object is read as. -/
theorem ofJson_object (members : List (String × Json)) :
    ofJson (.object members) = .map (PropertyMap.ofMembers members).entries := by
  show _ = Value.map (SortedEntries.ofList (normalizeEntries (entriesOfJson members)))
  rw [normalizeEntries_of_normal (normalEntries_entriesOfJson members), ofJson]

/-! ## §3. Back and there. -/

theorem toJson_ofInt {i : Int} (h : Int64.minValue.toInt ≤ i ∧ i ≤ Int64.maxValue.toInt) :
    (ofInt i).toJson = .int i := by
  rw [ofInt, if_pos h, toJson]
  rw [show Int64.minValue.toInt = -9223372036854775808 by decide,
    show Int64.maxValue.toInt = 9223372036854775807 by decide] at h
  rw [Int64.toInt_ofInt_of_le (by omega) (by omega)]

mutual

/-- **The JSON form of what has been read** is what was read, in normal order. -/
theorem toJson_ofJson : ∀ {j : Json}, j.IntegersFit → (ofJson j).toJson = j.normalize
  | .null, _ => rfl
  | .bool _, _ => rfl
  | .int _, h => toJson_ofInt h
  | .float _, _ => rfl
  | .str _, _ => rfl
  | .array items, h => by rw [ofJson, toJson, itemsToJson_itemsOfJson h, Json.normalize]
  | .object members, h => by
    -- put in order before or after, the members have the same values
    rw [ofJson, toJson, entriesToJson_eq_map, ← SortedEntries.ofList_map_value,
      ← entriesToJson_eq_map, entriesToJson_entriesOfJson h, Json.normalize]

theorem itemsToJson_itemsOfJson : ∀ {items : List Json}, Json.IntegersFitItems items →
    itemsToJson (itemsOfJson items) = Json.normalizeItems items
  | [], _ => rfl
  | _ :: _, h => by
    rw [itemsOfJson, itemsToJson, toJson_ofJson h.1, itemsToJson_itemsOfJson h.2,
      Json.normalizeItems]

theorem entriesToJson_entriesOfJson : ∀ {members : List (String × Json)},
    Json.IntegersFitMembers members →
    entriesToJson (entriesOfJson members) = Json.normalizeMembers members
  | [], _ => rfl
  | (_, _) :: _, h => by
    rw [entriesOfJson, entriesToJson, toJson_ofJson h.1, entriesToJson_entriesOfJson h.2,
      Json.normalizeMembers]

end

/-! ## §4. Straight into a file. -/

mutual

/-- A value at a level, before `rest`.  A float that is not finite is written as
null. -/
def write (layout : Json.Layout) (level : Nat) : Value → List Char → List Char
  | .null, rest => 'n' :: 'u' :: 'l' :: 'l' :: rest
  | .bool true, rest => 't' :: 'r' :: 'u' :: 'e' :: rest
  | .bool false, rest => 'f' :: 'a' :: 'l' :: 's' :: 'e' :: rest
  | .int i, rest => Json.intText i.toInt ++ rest
  | .float (.finite x), rest => x.text Json.numberStyle ++ rest
  | .float .nan, rest => 'n' :: 'u' :: 'l' :: 'l' :: rest
  | .float (.infinite _), rest => 'n' :: 'u' :: 'l' :: 'l' :: rest
  | .str s, rest => Json.writeString s rest
  | .list [], rest => '[' :: ']' :: rest
  | .list (item :: items), rest =>
    '[' :: Json.writeBreak layout (level + 1)
      (write layout (level + 1) item
        (writeItems layout (level + 1) items (Json.writeBreak layout level (']' :: rest))))
  | .map [], rest => '\x7b' :: '\x7d' :: rest
  | .map ((key, value) :: entries), rest =>
    '\x7b' :: Json.writeBreak layout (level + 1)
      (Json.writeString key (Json.writeColon layout
        (write layout (level + 1) value
          (writeEntries layout (level + 1) entries
            (Json.writeBreak layout level ('\x7d' :: rest))))))

/-- Further items, each after a comma. -/
def writeItems (layout : Json.Layout) (level : Nat) : List Value → List Char → List Char
  | [], rest => rest
  | item :: items, rest =>
    ',' :: Json.writeBreak layout level
      (write layout level item (writeItems layout level items rest))

/-- Further entries, each after a comma. -/
def writeEntries (layout : Json.Layout) (level : Nat) :
    List (String × Value) → List Char → List Char
  | [], rest => rest
  | (key, value) :: entries, rest =>
    ',' :: Json.writeBreak layout level
      (Json.writeString key (Json.writeColon layout
        (write layout level value (writeEntries layout level entries rest))))

end

section

variable (layout : Json.Layout)

mutual

/-- **What is written is the text of the JSON form**, wherever it stands. -/
theorem write_eq : ∀ (level : Nat) (value : Value) (rest : List Char),
    value.write layout level rest = value.toJson.write layout level rest
  | _, .null, _ => rfl
  | _, .bool true, _ => rfl
  | _, .bool false, _ => rfl
  | _, .int _, _ => rfl
  | _, .float (.finite _), _ => rfl
  | _, .float .nan, _ => rfl
  | _, .float (.infinite _), _ => rfl
  | _, .str _, _ => rfl
  | _, .list [], _ => rfl
  | level, .list (item :: items), rest => by
    rw [write, toJson, itemsToJson, Json.write, write_eq (level + 1) item,
      writeItems_eq (level + 1) items]
  | _, .map [], _ => rfl
  | level, .map ((key, value) :: entries), rest => by
    rw [write, toJson, entriesToJson, Json.write, write_eq (level + 1) value,
      writeEntries_eq (level + 1) entries]

theorem writeItems_eq : ∀ (level : Nat) (items : List Value) (rest : List Char),
    writeItems layout level items rest = Json.writeItems layout level (itemsToJson items) rest
  | _, [], _ => rfl
  | level, item :: items, rest => by
    rw [writeItems, itemsToJson, Json.writeItems, write_eq level item, writeItems_eq level items]

theorem writeEntries_eq : ∀ (level : Nat) (entries : List (String × Value)) (rest : List Char),
    writeEntries layout level entries rest
      = Json.writeMembers layout level (entriesToJson entries) rest
  | _, [], _ => rfl
  | level, (key, value) :: entries, rest => by
    rw [writeEntries, entriesToJson, Json.writeMembers, write_eq level value,
      writeEntries_eq level entries]

end

/-- The text of a value is the text of no other JSON value than its JSON form. -/
theorem write_eq_text_iff {value : Value} {j : Json} :
    String.ofList (value.write layout 0 []) = j.text layout ↔ value.toJson = j := by
  rw [write_eq]
  exact ⟨Json.text_injective, congrArg (Json.text layout)⟩

end

end Value

/-! ## §5. Properties in records and results. -/

/-- Under each key stands the JSON form of the property. -/
theorem PropertyMap.get?_toJson (properties : PropertyMap) (key : String) :
    properties.toJson.get? key = (properties.find? key).map Value.toJson := by
  obtain ⟨entries, hasc, -⟩ := properties
  show Json.lastMember? key (Value.entriesToJson entries) = _
  rw [Value.entriesToJson_eq_map,
    Json.lastMember?_of_ascending (SortedEntries.ascending_map_value Value.toJson hasc)]
  exact SortedMap.find?_mapValues Value.toJson ⟨entries, hasc⟩ key

/-- The JSON value of a property, in the record of a file or in a result. -/
def Json.property? (entity : Json) (key : String) : Option Json :=
  (entity.get? "properties").bind (Json.get? key)

/-! ## §6. The codec. -/

namespace Value

/-- **The codec is inverse in both directions.**  Decoding the JSON form of a
value gives its saved form, and the properties of a record are decoded in the
same way.  A file holds the JSON form and nothing else, at every level, in both
layouts, and in the records of nodes and relationships as in results.  Every JSON
value with integers of 64 bits is decoded, and the JSON form of the result is
that value: the same one if its members are in order, and otherwise with its
members in order. -/
theorem codec_inverse (v : Value) (j : Json) (layout : Json.Layout) (level : Nat)
    (rest : List Char) (node : Node) (relationship : Relationship) (key : String)
    (members : List (String × Json)) :
    (v.Normal → decode v.toJson = some v.savedForm)
      ∧ decode (.object members) = some (.map (PropertyMap.ofMembers members).entries)
      ∧ v.write layout level rest = v.toJson.write layout level rest
      ∧ (String.ofList (v.write layout 0 []) = j.text layout ↔ v.toJson = j)
      ∧ (node.toRecord.property? key = (node.property? key).map toJson
        ∧ node.toJson.property? key = (node.property? key).map toJson)
      ∧ (relationship.toRecord.property? key = (relationship.property? key).map toJson
        ∧ relationship.toJson.property? key = (relationship.property? key).map toJson)
      ∧ (j.IntegersFit → ∃ w, decode j = some w ∧ w.toJson = j.normalize
        ∧ (j.Ordered → w.toJson = j)) := by
  refine ⟨fun h => ?_, ?_, write_eq layout level v rest, write_eq_text_iff layout,
    ⟨node.properties.get?_toJson key, node.properties.get?_toJson key⟩,
    ⟨relationship.properties.get?_toJson key, relationship.properties.get?_toJson key⟩,
    fun h => ?_⟩
  · rw [decode_eq, ofJson_toJson h]
  · rw [decode_eq, ofJson_object]
  · have hback : (ofJson j).toJson = j.normalize := toJson_ofJson h
    exact ⟨ofJson j, decode_eq j, hback, fun hordered =>
      hback.trans (Json.normalize_of_ordered hordered)⟩

/-- A map with floats that JSON has no form for. -/
def unformedMap : Value :=
  .map [("at", .list [.float .nan, .int 7, .float (.finite (Finite64.zero true))]),
    ("by", .map [("x", .float (.infinite false))]), ("to", .null)]

theorem codec_inverse_unformedMap :
    unformedMap.Normal
      ∧ decode unformedMap.toJson = some (.map
        [("at", .list [.null, .int 7, .float (.finite (Finite64.zero true))]),
          ("by", .map [("x", .null)]), ("to", .null)])
      ∧ unformedMap.toJson.IntegersFit ∧ unformedMap.toJson.Ordered
      ∧ ∃ w, decode unformedMap.toJson = some w ∧ w.toJson = unformedMap.toJson := by
  have hnormal : unformedMap.Normal :=
    ⟨by decide, ⟨trivial, trivial, trivial, trivial⟩, ⟨by decide, trivial, trivial⟩, trivial,
      trivial⟩
  have hfit : unformedMap.toJson.IntegersFit :=
    ⟨⟨trivial, ⟨by decide, by decide⟩, trivial, trivial⟩, ⟨trivial, trivial⟩, trivial, trivial⟩
  have hordered : unformedMap.toJson.Ordered :=
    ⟨by decide, ⟨trivial, trivial, trivial, trivial⟩, ⟨by decide, trivial, trivial⟩, trivial,
      trivial⟩
  have hlaws := codec_inverse unformedMap unformedMap.toJson .compact 0 [] ⟨1, ∅, ∅⟩
    ⟨1, "R", 1, 1, ∅⟩ "x" []
  obtain ⟨w, hdecode, -, hback⟩ := hlaws.2.2.2.2.2.2 hfit
  exact ⟨hnormal, hlaws.1 hnormal, hfit, hordered, w, hdecode, hback hordered⟩

end Value

end PropertyGraph
