/-
  PropertyGraph.Proofs.Files.Record
  ─────────────────────────────────
  **DATA FILES ARE READ BACK.**

  The record of an entity is read as the entity in its saved form, and the
  envelope of records as a collection of what the records hold, with its
  counter.  Ids are whole numbers of 64 bits in a file, so all of this is
  about ids below `2^64`.

      Node.ofRecord?_toRecord          — one node
      Relationship.ofRecord?_toRecord  — one relationship
      Collection.ofJson_envelope       — a whole file
-/
import PropertyGraph.Files.Record
import PropertyGraph.Proofs.Value.SavedForm

namespace PropertyGraph

/-! ## §1. Fields. -/

theorem Field.id?_int {n : Nat} (h : n < UInt64.size) : Field.id? (.int n) = some n := by
  have hlt : (n : Int) < UInt64.size := Int.ofNat_lt.2 h
  unfold Field.id?
  dsimp only
  rw [if_pos ⟨Int.natCast_nonneg n, hlt⟩, Int.toNat_natCast]

theorem Field.labels?_map_str (labels : List Label) :
    Field.labels? (labels.map .str) = some labels := by
  induction labels with
  | nil => rfl
  | cons label rest ih =>
    rw [List.map_cons, labels?, ih]
    rfl

theorem fitsInt_natCast {n : Nat} (h : n < UInt64.size) : Json.FitsInt n := by
  have hmin : Int64.minValue.toInt ≤ 0 := by decide
  exact ⟨Int.le_trans hmin (Int.natCast_nonneg n), Int.ofNat_lt.2 h⟩

theorem legibleItems_map_str (labels : List Label) :
    Json.LegibleItems (labels.map .str) := by
  induction labels with
  | nil => trivial
  | cons label rest ih => exact ⟨trivial, ih⟩

/-! ## §2. Records. -/

namespace Node

/-- The node with its properties in their saved form. -/
def savedForm (node : Node) : Node := { node with properties := node.properties.savedForm }

/-- A record with all fields of a node is read as a node. -/
theorem ofRecord?_fields {id : Nat} (hid : id < UInt64.size) (labels : List Label)
    (members : List (String × Json)) :
    ofRecord? (.object [("id", .int id), ("labels", .array (labels.map .str)),
        ("properties", .object members)])
      = some ⟨id, SortedSet.ofList labels, .ofMembers members⟩ := by
  have hfields : Field.all? ["id", "labels", "properties"]
      (.object [("id", .int id), ("labels", .array (labels.map .str)),
        ("properties", .object members)])
      = some [some (.int id), some (.array (labels.map .str)), some (.object members)] := rfl
  unfold ofRecord?
  rw [hfields]
  dsimp only
  rw [Field.id?_int hid]
  show (Field.labels? (labels.map .str)).bind _ = _
  rw [Field.labels?_map_str]
  rfl

/-- **The record of a node** is read as the node in its saved form. -/
theorem ofRecord?_toRecord {node : Node} (hid : node.id < UInt64.size) :
    ofRecord? node.toRecord = some node.savedForm := by
  refine (ofRecord?_fields hid node.labels.toList
    (Value.entriesToJson node.properties.entries)).trans ?_
  rw [SortedSet.ofList_toList, PropertyMap.ofMembers_entriesToJson]
  rfl

theorem toRecord_savedForm (node : Node) : node.savedForm.toRecord = node.toRecord := by
  unfold toRecord savedForm
  rw [PropertyMap.toJson_savedForm]

theorem legible_toRecord {node : Node} (hid : node.id < UInt64.size)
    (hfloats : node.properties.AllFloats Json.ReadsBack) : node.toRecord.Legible :=
  ⟨fitsInt_natCast hid, legibleItems_map_str _, PropertyMap.legible_toJson hfloats, trivial⟩

end Node

namespace Relationship

/-- The relationship with its properties in their saved form. -/
def savedForm (relationship : Relationship) : Relationship :=
  { relationship with properties := relationship.properties.savedForm }

/-- A record with all fields of a relationship is read as a relationship. -/
theorem ofRecord?_fields {id start end_ : Nat} (hid : id < UInt64.size)
    (hstart : start < UInt64.size) (hend : end_ < UInt64.size) (type : RelationshipType)
    (members : List (String × Json)) :
    ofRecord? (.object [("id", .int id), ("type", .str type), ("start", .int start),
        ("end", .int end_), ("properties", .object members)])
      = some ⟨id, type, start, end_, .ofMembers members⟩ := by
  have hfields : Field.all? ["id", "type", "start", "end", "properties"]
      (.object [("id", .int id), ("type", .str type), ("start", .int start),
        ("end", .int end_), ("properties", .object members)])
      = some [some (.int id), some (.str type), some (.int start), some (.int end_),
        some (.object members)] := rfl
  unfold ofRecord?
  rw [hfields]
  dsimp only
  rw [Field.id?_int hid, Field.id?_int hstart, Field.id?_int hend]
  rfl

/-- **The record of a relationship** is read as the relationship in its saved
form. -/
theorem ofRecord?_toRecord {r : Relationship} (hid : r.id < UInt64.size)
    (hstart : r.start < UInt64.size) (hend : r.end < UInt64.size) :
    ofRecord? r.toRecord = some r.savedForm := by
  refine (ofRecord?_fields hid hstart hend r.type
    (Value.entriesToJson r.properties.entries)).trans ?_
  rw [PropertyMap.ofMembers_entriesToJson]
  rfl

theorem toRecord_savedForm (r : Relationship) : r.savedForm.toRecord = r.toRecord := by
  unfold toRecord savedForm
  rw [PropertyMap.toJson_savedForm]

theorem legible_toRecord {r : Relationship} (hid : r.id < UInt64.size)
    (hstart : r.start < UInt64.size) (hend : r.end < UInt64.size)
    (hfloats : r.properties.AllFloats Json.ReadsBack) : r.toRecord.Legible :=
  ⟨fitsInt_natCast hid, trivial, fitsInt_natCast hstart, fitsInt_natCast hend,
    PropertyMap.legible_toJson hfloats, trivial⟩

end Relationship

/-! ## §3. Envelopes. -/

theorem readRecords_map {ρ : Type} {toRecord : ρ → Json} {ofRecord? : Json → Option ρ}
    {saved : ρ → ρ} {items : List ρ} (h : ∀ item ∈ items, ofRecord? (toRecord item)
      = some (saved item)) :
    readRecords ofRecord? (items.map toRecord) = some (items.map saved) := by
  induction items with
  | nil => rfl
  | cons item rest ih =>
    rw [List.map_cons, readRecords, h item List.mem_cons_self,
      ih (fun other hother => h other (List.mem_cons_of_mem item hother))]
    rfl

theorem legibleItems_map {ρ : Type} {toRecord : ρ → Json} {items : List ρ}
    (h : ∀ item ∈ items, (toRecord item).Legible) : Json.LegibleItems (items.map toRecord) := by
  induction items with
  | nil => trivial
  | cons item rest ih =>
    exact ⟨h item List.mem_cons_self,
      ih (fun other hother => h other (List.mem_cons_of_mem item hother))⟩

namespace Collection

variable {ρ : Type}

/-- The members of an envelope. -/
def members (nextId : Nat) (records : List Json) : List (String × Json) :=
  [("version", .int formatVersion), ("next_id", .int nextId), ("records", .array records)]

theorem envelopeParts?_members {nextId : Nat} (records : List Json)
    (hnext : nextId < UInt64.size) :
    envelopeParts? (members nextId records)
      = some (formatVersion, some nextId, .array records) := by
  have honce : ["version", "next_id", "records"].all (atMostOnce (members nextId records))
      = true := rfl
  have hversion : Json.lastMember? "version" (members nextId records)
      = some (.int formatVersion) := rfl
  have hnextId : Json.lastMember? "next_id" (members nextId records)
      = some (.int nextId) := rfl
  have hrecords : Json.lastMember? "records" (members nextId records)
      = some (.array records) := rfl
  have hone : version? (.int formatVersion) = some formatVersion := by decide
  have hcounter : nextId? (some (.int nextId)) = some (some nextId) := by
    show (Field.id? (.int nextId)).map some = _
    rw [Field.id?_int hnext]
    rfl
  unfold envelopeParts?
  rw [if_pos honce, hversion, hnextId, hrecords, hcounter]
  simp only [Option.bind_eq_bind, Option.bind_some, hone]
  rfl

theorem ofJson_object {ofRecord? : Json → Option ρ} {members : List (String × Json)}
    {nextId : Option Nat} {records : List Json}
    (h : envelopeParts? members = some (formatVersion, nextId, .array records)) :
    ofJson ofRecord? (.object members) = ofRecords ofRecord? nextId records := by
  rw [ofJson, h]
  exact if_neg (Nat.lt_irrefl formatVersion)

/-- **The envelope of records** is read as what the records hold. -/
theorem ofJson_envelope {ofRecord? : Json → Option ρ} {nextId : Nat} {records : List Json}
    {items : List ρ} (hnext : nextId < UInt64.size)
    (hrecords : readRecords ofRecord? records = some items) :
    ofJson ofRecord? (envelope nextId records) = .ok ⟨items, some nextId⟩ := by
  have hobject : envelope nextId records = .object (members nextId records) := rfl
  rw [hobject, ofJson_object (envelopeParts?_members records hnext), ofRecords, hrecords]

theorem legible_envelope {nextId : Nat} {records : List Json} (hnext : nextId < UInt64.size)
    (hrecords : Json.LegibleItems records) : (envelope nextId records).Legible :=
  ⟨⟨by decide, by decide⟩, fitsInt_natCast hnext, hrecords, trivial⟩

end Collection

end PropertyGraph
