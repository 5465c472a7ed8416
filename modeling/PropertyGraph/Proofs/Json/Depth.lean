/-
  PropertyGraph.Proofs.Json.Depth
  ───────────────────────────────
  **THE LIMIT ON NESTING ONLY REFUSES.**

  What is read is never nested deeper than the limit, and with any limit that
  it keeps to the same is read (`readersWithin`).  So a text that is read at all
  is read with a given limit if and only if its value is not nested deeper
  (`exists_parse_iff`), and the text of a value if and only if the value is
  not (`ReadsAs.parse_iff`).

  The reader has one limit for all its parts, counted down at each bracket, so
  the three readers go together by induction on their fuel.
-/
import PropertyGraph.Proofs.Json.RoundTrip

namespace PropertyGraph.Json

/-! ## §1. Readers and limits. -/

/-- A value that was read is not nested deeper than the limit, and is read with
every limit that it keeps to. -/
def ReadsWithin {α : Type} (depthOf : α → Nat) (read : Nat → Option (α × List Char)) : Prop :=
  ∀ limit value rest, read limit = some (value, rest) →
    depthOf value ≤ limit ∧ ∀ other, depthOf value ≤ other → read other = some (value, rest)

/-- The three readers at once. -/
structure ReadersWithin (fuel : Nat) : Prop where
  value : ∀ text, ReadsWithin depth (fun limit => readValue fuel limit text)
  items : ∀ text, ReadsWithin depthItems (fun limit => readItems fuel limit text)
  members : ∀ text, ReadsWithin depthMembers (fun limit => readMembers fuel limit text)

theorem readersWithin_zero : ReadersWithin 0 where
  value text limit value rest h := by
    dsimp only at h
    rw [readValue] at h
    cases h
  items text limit value rest h := by
    dsimp only at h
    rw [readItems] at h
    cases h
  members text limit value rest h := by
    dsimp only at h
    rw [readMembers] at h
    cases h

/-! ## §2. One step of each reader. -/

section

variable {fuel : Nat}

theorem ReadersWithin.items_succ (h : ReadersWithin fuel) (text : List Char) :
    ReadsWithin depthItems (fun limit => readItems (fuel + 1) limit text) := by
  intro limit items rest hread
  dsimp only at hread ⊢
  rw [readItems] at hread
  obtain ⟨⟨item, left⟩, hitem, hread⟩ := Option.bind_eq_some_iff.1 hread
  obtain ⟨hdepth, hother⟩ := h.value text limit item left hitem
  dsimp only at hread
  split at hread
  next tail hclose =>
    obtain ⟨rfl, rfl⟩ := Prod.mk.inj (Option.some.inj hread)
    refine ⟨Nat.max_le.2 ⟨hdepth, Nat.zero_le _⟩, fun other hle => ?_⟩
    exact readItems_last (hother other (Nat.max_le.1 hle).1) hclose
  next tail hcomma =>
    obtain ⟨⟨more, last⟩, hmore, hread⟩ := Option.bind_eq_some_iff.1 hread
    obtain ⟨rfl, rfl⟩ := Prod.mk.inj (Option.some.inj hread)
    obtain ⟨hdepthMore, hotherMore⟩ := h.items tail limit more last hmore
    refine ⟨Nat.max_le.2 ⟨hdepth, hdepthMore⟩, fun other hle => ?_⟩
    have hitem' := hother other (Nat.max_le.1 hle).1
    have hmore' := hotherMore other (Nat.max_le.1 hle).2
    dsimp only at hitem' hmore'
    rw [readItems, hitem']
    dsimp only [Option.bind_eq_bind, Option.bind_some]
    rw [hcomma]
    exact congrArg (Option.bind · _) hmore'
  next => cases hread

/-- The members from the value of the first one on. -/
def membersFrom (fuel : Nat) (name : String) (text : List Char) (limit : Nat) :
    Option (List (String × Json) × List Char) :=
  (readValue fuel limit text).bind (fun (value, text) =>
    match skipBlanks text with
    | '\x7d' :: text => some ([(name, value)], text)
    | ',' :: text =>
      (readMembers fuel limit text).bind (fun (members, text) =>
        some ((name, value) :: members, text))
    | _ => none)

/-- After a name and a colon there is a value. -/
theorem readMembers_colon {text tail left after : List Char} {name : String}
    (hquote : skipBlanks text = '"' :: tail) (hname : readString tail = some (name, left))
    (hcolon : skipBlanks left = ':' :: after) (limit : Nat) :
    readMembers (fuel + 1) limit text = membersFrom fuel name after limit := by
  rw [readMembers, hquote]
  show (readString tail).bind _ = _
  rw [hname, Option.bind_some]
  dsimp only
  rw [hcolon]
  rfl

/-- The first name and its colon are read with any limit. -/
theorem exists_membersFrom {text rest : List Char} {limit : Nat} {members : List (String × Json)}
    (h : readMembers (fuel + 1) limit text = some (members, rest)) :
    ∃ name after, (fun limit => readMembers (fuel + 1) limit text)
      = membersFrom fuel name after := by
  rw [readMembers] at h
  split at h
  next tail hquote =>
    obtain ⟨⟨name, left⟩, hname, h⟩ := Option.bind_eq_some_iff.1 h
    dsimp only at h
    split at h
    next after hcolon => exact ⟨name, after, funext (readMembers_colon hquote hname hcolon)⟩
    next => cases h
  next => cases h

theorem ReadersWithin.membersFrom (h : ReadersWithin fuel) (name : String) (text : List Char) :
    ReadsWithin depthMembers (membersFrom fuel name text) := by
  intro limit members rest hread
  unfold Json.membersFrom at hread ⊢
  obtain ⟨⟨value, left⟩, hvalue, hread⟩ := Option.bind_eq_some_iff.1 hread
  obtain ⟨hdepth, hother⟩ := h.value text limit value left hvalue
  dsimp only at hread
  split at hread
  next tail hclose =>
    obtain ⟨rfl, rfl⟩ := Prod.mk.inj (Option.some.inj hread)
    refine ⟨Nat.max_le.2 ⟨hdepth, Nat.zero_le _⟩, fun other hle => ?_⟩
    have hvalue' := hother other (Nat.max_le.1 hle).1
    dsimp only at hvalue'
    rw [hvalue', Option.bind_some]
    dsimp only
    rw [hclose]
    rfl
  next tail hcomma =>
    obtain ⟨⟨more, last⟩, hmore, hread⟩ := Option.bind_eq_some_iff.1 hread
    obtain ⟨rfl, rfl⟩ := Prod.mk.inj (Option.some.inj hread)
    obtain ⟨hdepthMore, hotherMore⟩ := h.members tail limit more last hmore
    refine ⟨Nat.max_le.2 ⟨hdepth, hdepthMore⟩, fun other hle => ?_⟩
    have hvalue' := hother other (Nat.max_le.1 hle).1
    have hmore' := hotherMore other (Nat.max_le.1 hle).2
    dsimp only at hvalue'
    rw [hvalue', Option.bind_some]
    dsimp only
    rw [hcomma]
    exact congrArg (Option.bind · _) hmore'
  next => cases hread

theorem ReadersWithin.members_succ (h : ReadersWithin fuel) (text : List Char) :
    ReadsWithin depthMembers (fun limit => readMembers (fuel + 1) limit text) := by
  intro limit members rest hread
  obtain ⟨name, after, hmembers⟩ := exists_membersFrom hread
  rw [hmembers] at hread ⊢
  exact h.membersFrom name after limit members rest hread

/-- Outside of brackets the limit does not count. -/
theorem readValue_of_no_bracket {text : List Char} (limit other : Nat)
    (hbracket : ∀ tail, skipBlanks text ≠ '[' :: tail)
    (hbrace : ∀ tail, skipBlanks text ≠ '\x7b' :: tail) :
    readValue (fuel + 1) limit text = readValue (fuel + 1) other text := by
  rw [readValue, readValue]
  generalize skipBlanks text = skipped at hbracket hbrace
  split
  · rfl
  · exact absurd rfl (hbracket _)
  · exact absurd rfl (hbrace _)
  · rfl
  · rfl
  · rfl
  · rfl

theorem depth_ofNumeral? {n : Numeral} {value : Json} (h : ofNumeral? n = some value) :
    value.depth = 0 := by
  unfold ofNumeral? at h
  split at h
  · obtain rfl := Option.some.inj h
    rfl
  · obtain ⟨x, -, rfl⟩ := Option.map_eq_some_iff.1 h
    rfl

theorem depth_of_no_bracket {text rest : List Char} {limit : Nat} {value : Json}
    (hbracket : ∀ tail, skipBlanks text ≠ '[' :: tail)
    (hbrace : ∀ tail, skipBlanks text ≠ '\x7b' :: tail)
    (h : readValue (fuel + 1) limit text = some (value, rest)) : value.depth = 0 := by
  rw [readValue] at h
  split at h
  · obtain ⟨_, _, h⟩ := Option.bind_eq_some_iff.1 h
    obtain ⟨rfl, -⟩ := Prod.mk.inj (Option.some.inj h)
    rfl
  next heq => exact absurd heq (hbracket _)
  next heq => exact absurd heq (hbrace _)
  · obtain ⟨rfl, -⟩ := Prod.mk.inj (Option.some.inj h)
    rfl
  · obtain ⟨rfl, -⟩ := Prod.mk.inj (Option.some.inj h)
    rfl
  · obtain ⟨rfl, -⟩ := Prod.mk.inj (Option.some.inj h)
    rfl
  · obtain ⟨⟨n, left⟩, -, h⟩ := Option.bind_eq_some_iff.1 h
    obtain ⟨number, hnumber, h⟩ := Option.bind_eq_some_iff.1 h
    obtain ⟨rfl, -⟩ := Prod.mk.inj (Option.some.inj h)
    exact depth_ofNumeral? hnumber

theorem ReadsWithin.inside {α : Type} {depthOf : α → Nat} {wrap : α → Json}
    {read : Nat → Option (α × List Char)} (h : ReadsWithin depthOf read)
    (hwrap : ∀ content, (wrap content).depth = depthOf content + 1) :
    ReadsWithin depth (inside wrap read) := by
  intro limit value rest hread
  cases limit with
  | zero => cases hread
  | succ limit =>
    obtain ⟨⟨content, left⟩, hcontent, heq⟩ := Option.map_eq_some_iff.1 hread
    obtain ⟨rfl, rfl⟩ := Prod.mk.inj heq
    obtain ⟨hdepth, hother⟩ := h limit content left hcontent
    rw [hwrap]
    refine ⟨Nat.succ_le_succ hdepth, fun other hle => ?_⟩
    cases other with
    | zero => exact absurd hle (Nat.not_succ_le_zero _)
    | succ other =>
      show (read other).map _ = _
      rw [hother other (Nat.le_of_succ_le_succ hle)]
      rfl

theorem ReadersWithin.itemsOrNone (h : ReadersWithin fuel) (text : List Char) :
    ReadsWithin depthItems (readItemsOrNone fuel text) := by
  unfold readItemsOrNone
  split
  · intro limit items rest hread
    obtain ⟨rfl, rfl⟩ := Prod.mk.inj (Option.some.inj hread)
    exact ⟨Nat.zero_le limit, fun _ _ => rfl⟩
  · exact h.items _

theorem ReadersWithin.membersOrNone (h : ReadersWithin fuel) (text : List Char) :
    ReadsWithin depthMembers (readMembersOrNone fuel text) := by
  unfold readMembersOrNone
  split
  · intro limit members rest hread
    obtain ⟨rfl, rfl⟩ := Prod.mk.inj (Option.some.inj hread)
    exact ⟨Nat.zero_le limit, fun _ _ => rfl⟩
  · exact h.members _

theorem ReadersWithin.value_succ (h : ReadersWithin fuel) (text : List Char) :
    ReadsWithin depth (fun limit => readValue (fuel + 1) limit text) := by
  by_cases hbracket : ∃ tail, skipBlanks text = '[' :: tail
  · obtain ⟨tail, hbracket⟩ := hbracket
    rw [funext (readValue_array hbracket)]
    exact (h.itemsOrNone tail).inside (fun _ => rfl)
  by_cases hbrace : ∃ tail, skipBlanks text = '\x7b' :: tail
  · obtain ⟨tail, hbrace⟩ := hbrace
    rw [funext (readValue_object hbrace)]
    exact (h.membersOrNone tail).inside (fun _ => rfl)
  intro limit value rest hread
  have hno : (∀ tail, skipBlanks text ≠ '[' :: tail) ∧ ∀ tail, skipBlanks text ≠ '\x7b' :: tail :=
    ⟨fun tail heq => hbracket ⟨tail, heq⟩, fun tail heq => hbrace ⟨tail, heq⟩⟩
  rw [depth_of_no_bracket hno.1 hno.2 hread]
  exact ⟨Nat.zero_le _, fun other _ =>
    (readValue_of_no_bracket other limit hno.1 hno.2).trans hread⟩

end

/-- **The readers and their limit.** -/
theorem readersWithin (fuel : Nat) : ReadersWithin fuel := by
  induction fuel with
  | zero => exact readersWithin_zero
  | succ fuel ih => exact ⟨ih.value_succ, ih.items_succ, ih.members_succ⟩

/-- A text is read if it begins with a value and only blanks follow. -/
theorem parse_eq_some_iff {text : String} {value : Json} {limit : Nat} :
    parse limit text = some value ↔ ∃ rest,
      readValue (2 * text.toList.length + 2) limit text.toList = some (value, rest)
        ∧ (skipBlanks rest).isEmpty = true := by
  unfold parse
  dsimp only
  constructor
  · intro h
    split at h
    next read rest hread =>
      split at h
      next hend =>
        obtain rfl := Option.some.inj h
        exact ⟨rest, hread, hend⟩
      next => cases h
    next => cases h
  · rintro ⟨rest, hread, hend⟩
    rw [hread]
    exact if_pos hend

/-- **A text is read within a limit** if and only if it is read at all and its
value is not nested deeper. -/
theorem exists_parse_iff {text : String} {value : Json} {large limit : Nat}
    (h : parse large text = some value) :
    (∃ other, parse limit text = some other) ↔ value.depth ≤ limit := by
  obtain ⟨rest, hread, hend⟩ := parse_eq_some_iff.1 h
  have hreader := (readersWithin (2 * text.toList.length + 2)).value text.toList
  obtain ⟨hlarge, hwithin⟩ := hreader large value rest hread
  constructor
  · rintro ⟨other, hother⟩
    obtain ⟨left, hfound, -⟩ := parse_eq_some_iff.1 hother
    obtain ⟨hdepth, hagain⟩ := hreader limit other left hfound
    -- the larger of the two limits reads what either reads
    have hmax := hagain (max limit large) (Nat.le_trans hdepth (Nat.le_max_left _ _))
    have hmax' := hwithin (max limit large) (Nat.le_trans hlarge (Nat.le_max_right _ _))
    obtain ⟨rfl, -⟩ := Prod.mk.inj (Option.some.inj (hmax.symm.trans hmax'))
    exact hdepth
  · intro hle
    exact ⟨value, parse_eq_some_iff.2 ⟨rest, hwithin limit hle, hend⟩⟩

/-! ## §3. Written values. -/

mutual

/-- What a written value is read as is nested as deep as the value. -/
theorem ReadsAs.depth_eq : ∀ {j read : Json}, ReadsAs j read → read.depth = j.depth
  | .null, _, h => by rw [show _ = Json.null from h]
  | .bool b, _, h => by rw [show _ = Json.bool b from h]
  | .str s, _, h => by
    rw [show _ = Json.str s from h]
  | .int _, _, h => by rw [h.2]
  | .float _, _, h => by
    obtain ⟨n, -, hvalue⟩ := h
    exact depth_ofNumeral? hvalue
  | .array _, _, h => by
    obtain ⟨readItems, hitems, rfl⟩ := h
    rw [depth, depth, ItemsReadAs.depth_eq hitems]
  | .object _, _, h => by
    obtain ⟨readMembers, hmembers, rfl⟩ := h
    rw [depth, depth, MembersReadAs.depth_eq hmembers]

theorem ItemsReadAs.depth_eq : ∀ {items read : List Json}, ItemsReadAs items read →
    depthItems read = depthItems items
  | [], [], _ => rfl
  | _ :: _, _ :: _, h => by
    rw [depthItems, depthItems, ReadsAs.depth_eq h.1, ItemsReadAs.depth_eq h.2]

theorem MembersReadAs.depth_eq : ∀ {members read : List (String × Json)},
    MembersReadAs members read → depthMembers read = depthMembers members
  | [], [], _ => rfl
  | (_, _) :: _, (_, _) :: _, h => by
    rw [depthMembers, depthMembers, ReadsAs.depth_eq h.2.1, MembersReadAs.depth_eq h.2.2]

end

/-- **The text of a value is read within a limit** if and only if the value is
not nested deeper. -/
theorem ReadsAs.parse_iff {j read : Json} {limit : Nat} (layout : Layout) (h : ReadsAs j read) :
    (∃ other, Json.parse limit (text layout j) = some other) ↔ j.depth ≤ limit := by
  rw [← h.depth_eq]
  exact exists_parse_iff (h.parse layout (Nat.le_refl _))

end PropertyGraph.Json
