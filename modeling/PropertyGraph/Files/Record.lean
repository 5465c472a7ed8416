/-
  PropertyGraph.Files.Record
  ──────────────────────────
  **RECORDS AND ENVELOPES OF DATA FILES.**

  A data file holds an envelope: the version of the format, the next id, and
  the records.  It is written with its members in this order, and records
  with their fields in the order of the tables below.

      node          id, labels, properties
      relationship  id, type, start, end, properties

  Reading is more liberal.  A record is an object, where unknown members are
  ignored and of a repeated one the last counts, or an array of the fields
  in order; labels and properties may be missing.  Null labels are dropped.
  An envelope may have further members, but none of its own twice.  An array
  in place of an envelope is a list of records without a counter.
-/
import PropertyGraph.Files.Error

namespace PropertyGraph

/-! ## §1. Fields. -/

namespace Field

/-- An id: a whole number of 64 bits. -/
def id? : Json → Option Nat
  | .int i => if 0 ≤ i ∧ i < UInt64.size then some i.toNat else none
  | _ => none

/-- A string. -/
def str? : Json → Option String
  | .str s => some s
  | _ => none

/-- Strings among which nulls are dropped. -/
def labels? : List Json → Option (List Label)
  | [] => some []
  | .null :: rest => labels? rest
  | .str s :: rest => (labels? rest).map (s :: ·)
  | _ :: _ => none

/-- The labels of a record; none if the field is missing. -/
def labelsOrNone? : Option Json → Option (List Label)
  | none => some []
  | some (.array items) => labels? items
  | some _ => none

/-- The properties of a record; none if the field is missing. -/
def propertiesOrNone? : Option Json → Option PropertyMap
  | none => some ∅
  | some (.object members) => some (.ofMembers members)
  | some _ => none

/-- The fields of a record by name or by place. -/
def all? (names : List String) : Json → Option (List (Option Json))
  | .object members => some (names.map (Json.lastMember? · members))
  | .array items =>
    if items.length ≤ names.length then
      some (items.map some ++ List.replicate (names.length - items.length) none)
    else none
  | _ => none

end Field

/-! ## §2. Records. -/

/-- The record of a node. -/
def Node.toRecord (node : Node) : Json :=
  .object
    [("id", .int node.id),
      ("labels", .array (node.labels.toList.map .str)),
      ("properties", node.properties.toJson)]

/-- The node of a record. -/
def Node.ofRecord? (record : Json) : Option Node :=
  match Field.all? ["id", "labels", "properties"] record with
  | some [some id, labels, properties] => do
    let id ← Field.id? id
    let labels ← Field.labelsOrNone? labels
    let properties ← Field.propertiesOrNone? properties
    return ⟨id, SortedSet.ofList labels, properties⟩
  | _ => none

/-- The record of a relationship. -/
def Relationship.toRecord (relationship : Relationship) : Json :=
  .object
    [("id", .int relationship.id),
      ("type", .str relationship.type),
      ("start", .int relationship.start),
      ("end", .int relationship.end),
      ("properties", relationship.properties.toJson)]

/-- The relationship of a record. -/
def Relationship.ofRecord? (record : Json) : Option Relationship :=
  match Field.all? ["id", "type", "start", "end", "properties"] record with
  | some [some id, some type, some start, some end_, properties] => do
    let id ← Field.id? id
    let type ← Field.str? type
    let start ← Field.id? start
    let end_ ← Field.id? end_
    let properties ← Field.propertiesOrNone? properties
    return ⟨id, type, start, end_, properties⟩
  | _ => none

/-- The contents of all records, if each has its form. -/
def readRecords {ρ : Type} (ofRecord? : Json → Option ρ) : List Json → Option (List ρ)
  | [] => some []
  | record :: rest =>
    match ofRecord? record, readRecords ofRecord? rest with
    | some item, some items => some (item :: items)
    | _, _ => none

/-! ## §3. Envelopes. -/

/-- The contents of a data file. -/
structure Collection (ρ : Type) where
  records : List ρ
  /-- The saved counter, if there is one. -/
  nextId : Option Nat

namespace Collection

variable {ρ : Type}

/-- What a missing file stands for. -/
def empty : Collection ρ := ⟨[], none⟩

/-- The envelope of some records. -/
def envelope (nextId : Nat) (records : List Json) : Json :=
  .object [("version", .int formatVersion), ("next_id", .int nextId), ("records", .array records)]

/-- Does no member of this name occur twice? -/
def atMostOnce (members : List (String × Json)) (name : String) : Bool :=
  (members.filter (fun member => member.1 == name)).length ≤ 1

/-- The saved counter: missing and null mean none. -/
def nextId? : Option Json → Option (Option Nat)
  | none => some none
  | some .null => some none
  | some value => (Field.id? value).map some

/-- A version: a whole number of 32 bits. -/
def version? : Json → Option Nat
  | .int i => if 0 ≤ i ∧ i < UInt32.size then some i.toNat else none
  | _ => none

/-- The parts of an envelope: version, counter, records. -/
def envelopeParts? (members : List (String × Json)) : Option (Nat × Option Nat × Json) :=
  if ["version", "next_id", "records"].all (atMostOnce members) then do
    let version ← version? (← Json.lastMember? "version" members)
    let nextId ← nextId? (Json.lastMember? "next_id" members)
    let records ← Json.lastMember? "records" members
    return (version, nextId, records)
  else none

/-- The records of an array, with a counter. -/
def ofRecords (ofRecord? : Json → Option ρ) (nextId : Option Nat) (records : List Json) :
    Except StorageError (Collection ρ) :=
  match readRecords ofRecord? records with
  | some items => .ok ⟨items, nextId⟩
  | none => .error .malformedData

/-- The contents of a data file.  A newer version is refused before its
records are looked at. -/
def ofJson (ofRecord? : Json → Option ρ) : Json → Except StorageError (Collection ρ)
  | .array records => ofRecords ofRecord? none records
  | .object members =>
    match envelopeParts? members with
    | none => .error .malformedData
    | some (version, nextId, records) =>
      -- the records of a newer version may have any form
      if formatVersion < version then .error (.unsupportedVersion version)
      else
        match records with
        | .array records => ofRecords ofRecord? nextId records
        | _ => .error .malformedData
  | _ => .error .malformedData

end Collection

end PropertyGraph
