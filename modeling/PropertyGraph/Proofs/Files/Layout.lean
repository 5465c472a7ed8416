/-
  PropertyGraph.Proofs.Files.Layout
  ─────────────────────────────────
  **WHAT A DATA FILE SAYS.**

  A data file is a list of records or an envelope around one, and a missing
  file says that there are no records (`InFile`).  Reading accepts just these
  and finds what they say:

      valuesOf_eq_toList        — a member that may stand once
      ofJson_eq_ok_iff          — for documents in either layout
      readCollection_eq_ok_iff  — for files on a disk
-/
import Mathlib.Data.List.Forall2
import PropertyGraph.Files.Storage

namespace PropertyGraph

/-- The values of all members of this name, in order. -/
def Json.valuesOf (name : String) (members : List (String × Json)) : List Json :=
  (members.filter (fun member => member.1 == name)).map (·.2)

namespace Collection

variable {ρ : Type} {ofRecord? : Json → Option ρ}

/-! ## §1. The two layouts. -/

/-- The counter that the members of its name save. -/
inductive SavesCounter : List Json → Option Nat → Prop where
  | absent : SavesCounter [] none
  | null : SavesCounter [.null] none
  | id {n : Nat} (fits : n < UInt64.size) : SavesCounter [.int n] (some n)

theorem SavesCounter.length_le {values : List Json} {nextId : Option Nat}
    (h : SavesCounter values nextId) : values.length ≤ 1 := by
  cases h with
  | absent => exact Nat.zero_le 1
  | null => exact Nat.le_refl 1
  | id => exact Nat.le_refl 1

theorem SavesCounter.fits {values : List Json} {nextId : Option Nat}
    (h : SavesCounter values nextId) : ∀ n ∈ nextId, n < UInt64.size := by
  cases h with
  | absent | null => exact nofun
  | id hfits =>
    intro n hn
    obtain rfl := Option.some.inj hn
    exact hfits

/-- Each item is the record of an entry, in order. -/
abbrev AreRecords (ofRecord? : Json → Option ρ) : List Json → List ρ → Prop :=
  List.Forall₂ (fun item record => ofRecord? item = some record)

/-- What a document stands for. -/
inductive Means (ofRecord? : Json → Option ρ) : Json → Collection ρ → Prop where
  /-- A list of records has no counter. -/
  | bare {items : List Json} {records : List ρ} (records_of : AreRecords ofRecord? items records) :
      Means ofRecord? (.array items) ⟨records, none⟩
  /-- An envelope has a version and records once, a counter at most once, and any
  others. -/
  | envelope {members : List (String × Json)} {version : Nat} {nextId : Option Nat}
      {items : List Json} {records : List ρ}
      (version_of : Json.valuesOf "version" members = [.int version])
      (supported : version ≤ formatVersion)
      (counter_of : SavesCounter (Json.valuesOf "next_id" members) nextId)
      (items_of : Json.valuesOf "records" members = [.array items])
      (records_of : AreRecords ofRecord? items records) :
      Means ofRecord? (.object members) ⟨records, nextId⟩

/-- What the file in a place says, or that there is none. -/
inductive InFile (ofRecord? : Json → Option ρ) : Option DiskEntry → Collection ρ → Prop where
  | missing : InFile ofRecord? none ⟨[], none⟩
  | written {text : String} {json : Json} {contents : Collection ρ}
      (parsed : Json.parse nestingLimit text = some json) (means : Means ofRecord? json contents) :
      InFile ofRecord? (some (.file (.text text))) contents

/-! ## §2. Members. -/

theorem atMostOnce_iff {members : List (String × Json)} {name : String} :
    atMostOnce members name = true ↔ (Json.valuesOf name members).length ≤ 1 := by
  unfold atMostOnce Json.valuesOf
  rw [decide_eq_true_iff, List.length_map]

theorem lastMember?_eq_getLast? (name : String) (members : List (String × Json)) :
    Json.lastMember? name members = (Json.valuesOf name members).getLast? := by
  unfold Json.lastMember? Json.valuesOf
  rw [← List.head?_filter, List.filter_reverse, List.head?_reverse, List.getLast?_map]

/-- A member that is there at most once is the last of its name. -/
theorem valuesOf_eq_toList {members : List (String × Json)} {name : String}
    (h : atMostOnce members name = true) :
    Json.valuesOf name members = (Json.lastMember? name members).toList := by
  have hlength : (Json.valuesOf name members).length ≤ 1 := atMostOnce_iff.1 h
  rw [lastMember?_eq_getLast?]
  cases hvalues : Json.valuesOf name members with
  | nil => rfl
  | cons value rest =>
    cases rest with
    | nil => rfl
    | cons other more =>
      rw [hvalues, List.length_cons, List.length_cons] at hlength
      omega

/-- A whole number within a bound. -/
theorem toNat_within_iff {i : Int} {bound n : Nat} :
    (if 0 ≤ i ∧ i < bound then some i.toNat else none) = some n ↔ i = n ∧ n < bound := by
  split
  next hfits =>
    rw [Option.some_inj]
    omega
  next hnot =>
    refine ⟨nofun, fun h => absurd ?_ hnot⟩
    omega

theorem id?_eq_some_iff {value : Json} {n : Nat} :
    Field.id? value = some n ↔ value = .int n ∧ n < UInt64.size := by
  cases value with
  | int i =>
    rw [Json.int.injEq]
    exact toNat_within_iff
  | _ => exact ⟨nofun, fun h => nomatch h.1⟩

theorem version?_eq_some_iff {value : Json} {version : Nat} :
    version? value = some version ↔ value = .int version ∧ version < UInt32.size := by
  cases value with
  | int i =>
    rw [Json.int.injEq]
    exact toNat_within_iff
  | _ => exact ⟨nofun, fun h => nomatch h.1⟩

theorem nextId?_eq_some_iff {value : Option Json} {nextId : Option Nat} :
    nextId? value = some nextId ↔ SavesCounter value.toList nextId := by
  constructor
  · intro h
    unfold nextId? at h
    split at h
    next =>
      obtain rfl := Option.some.inj h
      exact .absent
    next =>
      obtain rfl := Option.some.inj h
      exact .null
    next value _ =>
      obtain ⟨n, hid, rfl⟩ := Option.map_eq_some_iff.1 h
      obtain ⟨rfl, hfits⟩ := id?_eq_some_iff.1 hid
      exact .id hfits
  · intro h
    cases value with
    | none =>
      cases h
      rfl
    | some value =>
      cases h with
      | null => rfl
      | @id n hfits =>
        show (Field.id? (.int n)).map some = some (some n)
        rw [id?_eq_some_iff.2 ⟨rfl, hfits⟩]
        rfl

theorem valuesOf_eq_singleton_iff {members : List (String × Json)} {name : String} {value : Json}
    (h : atMostOnce members name = true) :
    Json.valuesOf name members = [value] ↔ Json.lastMember? name members = some value := by
  rw [valuesOf_eq_toList h]
  exact Option.toList_eq_singleton_iff

/-- **The parts of an envelope** are its members, each of them there once. -/
theorem envelopeParts?_eq_some_iff {members : List (String × Json)} {version : Nat}
    {nextId : Option Nat} {records : Json} :
    envelopeParts? members = some (version, nextId, records)
      ↔ (Json.valuesOf "version" members = [.int version] ∧ version < UInt32.size)
        ∧ SavesCounter (Json.valuesOf "next_id" members) nextId
        ∧ Json.valuesOf "records" members = [records] := by
  unfold envelopeParts?
  constructor
  · intro h
    split at h
    next honce =>
      simp only [List.all_cons, List.all_nil, Bool.and_true, Bool.and_eq_true] at honce
      obtain ⟨honceVersion, honceCounter, honceRecords⟩ := honce
      -- version, its number, counter and records are looked up one after the other
      obtain ⟨value, hvalue, h⟩ := Option.bind_eq_some_iff.1 h
      obtain ⟨number, hnumber, h⟩ := Option.bind_eq_some_iff.1 h
      obtain ⟨counter, hcounter, h⟩ := Option.bind_eq_some_iff.1 h
      obtain ⟨found, hfound, h⟩ := Option.bind_eq_some_iff.1 h
      obtain ⟨rfl, heq⟩ := Prod.mk.inj (Option.some.inj h)
      obtain ⟨rfl, rfl⟩ := Prod.mk.inj heq
      obtain ⟨rfl, hfits⟩ := version?_eq_some_iff.1 hnumber
      rw [valuesOf_eq_toList honceCounter]
      exact ⟨⟨(valuesOf_eq_singleton_iff honceVersion).2 hvalue, hfits⟩,
        nextId?_eq_some_iff.1 hcounter, (valuesOf_eq_singleton_iff honceRecords).2 hfound⟩
    next => cases h
  · rintro ⟨⟨hversion, hfits⟩, hcounter, hrecords⟩
    have honceVersion : atMostOnce members "version" = true :=
      atMostOnce_iff.2 (by simp [hversion])
    have honceCounter : atMostOnce members "next_id" = true :=
      atMostOnce_iff.2 hcounter.length_le
    have honceRecords : atMostOnce members "records" = true :=
      atMostOnce_iff.2 (by simp [hrecords])
    rw [valuesOf_eq_toList honceCounter] at hcounter
    rw [if_pos (by simp only [List.all_cons, List.all_nil, honceVersion, honceCounter,
      honceRecords, Bool.and_self])]
    have hlastVersion : Json.lastMember? "version" members = some (.int version) :=
      (valuesOf_eq_singleton_iff honceVersion).1 hversion
    have hlastRecords : Json.lastMember? "records" members = some records :=
      (valuesOf_eq_singleton_iff honceRecords).1 hrecords
    exact Option.bind_eq_some_iff.2 ⟨_, hlastVersion,
      Option.bind_eq_some_iff.2 ⟨_, version?_eq_some_iff.2 ⟨rfl, hfits⟩,
        Option.bind_eq_some_iff.2 ⟨_, nextId?_eq_some_iff.2 hcounter,
          Option.bind_eq_some_iff.2 ⟨_, hlastRecords, rfl⟩⟩⟩⟩

/-! ## §3. Documents and files. -/

theorem readRecords_eq_some_iff {items : List Json} :
    ∀ {records : List ρ},
      readRecords ofRecord? items = some records ↔ AreRecords ofRecord? items records := by
  induction items with
  | nil =>
    intro records
    rw [readRecords, Option.some_inj, AreRecords, List.forall₂_nil_left_iff, eq_comm]
  | cons item rest ih =>
    intro records
    rw [AreRecords, List.forall₂_cons_left_iff, readRecords]
    constructor
    · intro h
      split at h
      next first others hfirst hothers =>
        exact ⟨first, others, hfirst, ih.1 hothers, (Option.some.inj h).symm⟩
      next => cases h
    · rintro ⟨first, others, hfirst, hothers, rfl⟩
      rw [hfirst, ih.2 hothers]

theorem ofRecords_eq_ok_iff {nextId : Option Nat} {items : List Json} {contents : Collection ρ} :
    ofRecords ofRecord? nextId items = .ok contents
      ↔ ∃ records, AreRecords ofRecord? items records ∧ contents = ⟨records, nextId⟩ := by
  unfold ofRecords
  constructor
  · intro h
    split at h
    next records hrecords =>
      exact ⟨records, readRecords_eq_some_iff.1 hrecords, (Except.ok.inj h).symm⟩
    next => cases h
  · rintro ⟨records, hrecords, rfl⟩
    rw [readRecords_eq_some_iff.2 hrecords]

/-- **A document is read as what it stands for.** -/
theorem ofJson_eq_ok_iff {json : Json} {contents : Collection ρ} :
    ofJson ofRecord? json = .ok contents ↔ Means ofRecord? json contents := by
  constructor
  · intro h
    cases json with
    | array items =>
      obtain ⟨records, hrecords, rfl⟩ := ofRecords_eq_ok_iff.1 h
      exact .bare hrecords
    | object members =>
      rw [ofJson] at h
      split at h
      next => cases h
      next version nextId records hparts =>
        obtain ⟨⟨hversion, -⟩, hcounter, hitems⟩ := envelopeParts?_eq_some_iff.1 hparts
        -- a newer version is refused whatever its records are
        split at h
        next => cases h
        next hsupported =>
          cases records with
          | array items =>
            obtain ⟨records, hrecords, rfl⟩ := ofRecords_eq_ok_iff.1 h
            exact .envelope hversion (Nat.not_lt.1 hsupported) hcounter hitems hrecords
          | _ => cases h
    | _ => cases h
  · intro h
    cases h with
    | bare hrecords => exact ofRecords_eq_ok_iff.2 ⟨_, hrecords, rfl⟩
    | @envelope members version nextId items records hversion hsupported hcounter hitems hrecords =>
      have hfits : version < UInt32.size := Nat.lt_of_le_of_lt hsupported (by decide)
      have hparts : envelopeParts? members = some (version, nextId, .array items) :=
        envelopeParts?_eq_some_iff.2 ⟨⟨hversion, hfits⟩, hcounter, hitems⟩
      simp only [ofJson, hparts, if_neg (Nat.not_lt.2 hsupported)]
      exact ofRecords_eq_ok_iff.2 ⟨_, hrecords, rfl⟩

theorem Means.unique {json : Json} {contents other : Collection ρ}
    (h : Means ofRecord? json contents) (hother : Means ofRecord? json other) :
    contents = other :=
  Except.ok.inj ((ofJson_eq_ok_iff.2 h).symm.trans (ofJson_eq_ok_iff.2 hother))

theorem InFile.unique {entry : Option DiskEntry} {contents other : Collection ρ}
    (h : InFile ofRecord? entry contents) (hother : InFile ofRecord? entry other) :
    contents = other := by
  cases h with
  | missing =>
    cases hother
    rfl
  | written hparsed hmeans =>
    cases hother with
    | written hparsed' hmeans' =>
      obtain rfl := Option.some.inj (hparsed.symm.trans hparsed')
      exact hmeans.unique hmeans'

/-- A saved counter is a number of 64 bits. -/
theorem InFile.nextId_fits {entry : Option DiskEntry} {contents : Collection ρ}
    (h : InFile ofRecord? entry contents) : ∀ n ∈ contents.nextId, n < UInt64.size := by
  cases h with
  | missing => exact nofun
  | written _ hmeans =>
    cases hmeans with
    | bare => exact nofun
    | envelope _ _ hcounter _ _ => exact hcounter.fits

end Collection

/-- **A file is read as what it says**, if its path can be written and, where
there is no file, nothing but a missing name stands in the way. -/
theorem Storage.readCollection_eq_ok_iff {ρ : Type} {ofRecord? : Json → Option ρ}
    {storage : Storage} {disk : Disk} {path : Path} {contents : Collection ρ} :
    storage.readCollection ofRecord? disk path = .ok contents
      ↔ storage.reaches path = true
        ∧ (disk.entry? path = none → disk.isMissing path = true)
        ∧ Collection.InFile ofRecord? (disk.entry? path) contents := by
  unfold readCollection
  constructor
  · intro h
    split at h
    next => cases h
    next hreaches =>
      refine ⟨Decidable.not_not.1 hreaches, ?_⟩
      split at h
      next hentry =>
        split at h
        next hmissing =>
          obtain rfl := Except.ok.inj h
          exact ⟨fun _ => hmissing, hentry ▸ .missing⟩
        next => cases h
      next text hentry =>
        split at h
        next json hparse =>
          rw [hentry]
          exact ⟨nofun, .written hparse (Collection.ofJson_eq_ok_iff.1 h)⟩
        next => cases h
      next => cases h
  · rintro ⟨hreaches, hmissing, hfile⟩
    rw [if_neg (fun hnot => hnot hreaches)]
    -- the entry has to be a variable for the cases of what it says
    generalize disk.entry? path = entry at hmissing hfile
    cases hfile with
    | missing => exact if_pos (hmissing rfl)
    | written hparse hmeans =>
      dsimp only
      rw [hparse]
      exact Collection.ofJson_eq_ok_iff.2 hmeans

end PropertyGraph
