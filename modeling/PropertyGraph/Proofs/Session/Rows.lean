/-
  PropertyGraph.Proofs.Session.Rows
  ─────────────────────────────────
  **ROWS ARE TOLD APART BY WHAT THEY SHOW.**

  RETURN DISTINCT compares texts.  What it keeps are the rows at those
  places before which no row has the same text (`distinct_eq_firsts`), and
  rows of solutions have the same text only if they show the same entities
  (`key_eq_iff`):

    * in equal texts a member of one object stands against a member of the
      same name (`SameText.exists_member`),
    * so ids stand against ids, and a node, which has labels, is not taken
      for a relationship, which has a type.
-/
import PropertyGraph.Proofs.Json.Injective
import PropertyGraph.Proofs.Search.Held
import PropertyGraph.Session.Outcome

namespace PropertyGraph

/-! ## §1. The first of its kind. -/

section

variable {α β : Type}

/-- No earlier item is the same as the item at this place. -/
def IsFirst (same : α → α → Prop) (items : List α) (place : Nat) : Prop :=
  ∀ before < place, ∀ earlier ∈ items[before]?, ∀ item ∈ items[place]?, ¬ same earlier item

instance (same : α → α → Prop) [DecidableRel same] (items : List α) (place : Nat) :
    Decidable (IsFirst same items place) :=
  inferInstanceAs (Decidable (∀ before < place, _))

/-- The items before which there is no same one, in order. -/
def firsts (same : α → α → Prop) [DecidableRel same] (items : List α) : List α :=
  (List.range items.length).filterMap
    (fun place => if IsFirst same items place then items[place]? else none)

/-- The firsts among images are the images of the firsts. -/
theorem firsts_map {f : α → β} {same : α → α → Prop} {other : β → β → Prop} [DecidableRel same]
    [DecidableRel other] {items : List α}
    (h : ∀ a ∈ items, ∀ b ∈ items, other (f a) (f b) ↔ same a b) :
    firsts other (items.map f) = (firsts same items).map f := by
  have hfirst : ∀ place, IsFirst other (items.map f) place ↔ IsFirst same items place := by
    intro place
    unfold IsFirst
    refine forall_congr' (fun before => forall_congr' (fun _ => ?_))
    simp only [List.getElem?_map, Option.mem_def, Option.map_eq_some_iff, forall_exists_index,
      and_imp, forall_apply_eq_imp_iff₂]
    refine forall_congr' (fun a => forall_congr' (fun ha => ?_))
    refine forall_congr' (fun b => forall_congr' (fun hb => not_congr ?_))
    exact h a (List.mem_of_getElem? ha) b (List.mem_of_getElem? hb)
  unfold firsts
  rw [List.length_map, List.map_filterMap]
  refine congrArg (List.filterMap · _) (funext (fun place => ?_))
  simp only [hfirst, List.getElem?_map]
  split <;> rfl

end

namespace Row

theorem exists_mem_append_singleton {before : List Row} {row : Row} {p : Row → Prop} :
    (∃ other ∈ before ++ [row], p other) ↔ (∃ other ∈ before, p other) ∨ p row := by
  simp only [List.mem_append, List.mem_singleton, or_and_right, exists_or, exists_eq_left]

theorem contains_add {seen : SortedSet String} {new key : String} :
    SortedMap.contains (seen.add new) key = true
      ↔ SortedMap.contains seen key = true ∨ new = key := by
  simp only [SortedMap.contains_eq_true_iff, SortedSet.add, SortedMap.find?_insert_eq]
  by_cases h : key = new
  · simp [h]
  · simp [h, Ne.symm h]

/-- Rows after others are left out if their keys have been seen. -/
theorem distinctAfter_eq (rest : List Row) : ∀ (before : List Row) (seen : SortedSet String),
    (∀ key, SortedMap.contains seen key = true ↔ ∃ row ∈ before, row.key = key) →
    distinctAfter seen rest
      = (List.range' before.length rest.length).filterMap (fun place =>
          if IsFirst (fun a b => a.key = b.key) (before ++ rest) place then (before ++ rest)[place]?
          else none) := by
  induction rest with
  | nil => exact fun _ _ _ => rfl
  | cons row rest ih =>
    intro before seen hseen
    -- the row stands at the place after all those before it
    have hat : (before ++ row :: rest)[before.length]? = some row := by
      rw [List.getElem?_append_right (Nat.le_refl _), Nat.sub_self]
      rfl
    have hfirst : IsFirst (fun a b => a.key = b.key) (before ++ row :: rest) before.length
        ↔ ¬ SortedMap.contains seen row.key = true := by
      rw [hseen]
      unfold IsFirst
      rw [hat]
      constructor
      · intro h hex
        obtain ⟨other, hother, hkey⟩ := hex
        obtain ⟨place, hplace, hget⟩ := List.mem_iff_getElem.1 hother
        refine h place hplace other ?_ row rfl hkey
        rw [List.getElem?_append_left hplace, List.getElem?_eq_getElem hplace, hget]
        rfl
      · intro h place hplace other hother item hitem hkey
        obtain rfl := Option.some.inj hitem
        rw [List.getElem?_append_left hplace] at hother
        exact h ⟨other, List.mem_of_getElem? hother, hkey⟩
    have hlater : ∀ seen', (∀ key, SortedMap.contains seen' key = true
        ↔ ∃ other ∈ before ++ [row], other.key = key) →
        distinctAfter seen' rest
          = (List.range' (before.length + 1) rest.length).filterMap (fun place =>
              if IsFirst (fun a b => a.key = b.key) (before ++ row :: rest) place then
                (before ++ row :: rest)[place]? else none) := by
      intro seen' hseen'
      have hrest := ih (before ++ [row]) seen' hseen'
      rwa [List.length_append, List.length_singleton, List.append_assoc] at hrest
    rw [List.length_cons, List.range'_succ, List.filterMap_cons, distinctAfter]
    by_cases hmem : SortedMap.contains seen row.key = true
    · rw [if_pos hmem, if_neg (fun h => hfirst.1 h hmem)]
      refine hlater seen (fun key => ?_)
      rw [hseen, exists_mem_append_singleton]
      refine ⟨.inl, fun hor => hor.elim id (fun heq => ?_)⟩
      exact heq ▸ (hseen row.key).1 hmem
    · rw [if_neg hmem, if_pos (hfirst.2 hmem), hat]
      refine congrArg (row :: ·) (hlater _ (fun key => ?_))
      rw [contains_add, hseen, exists_mem_append_singleton]

/-- **Distinct rows are the first of all rows with the same text.** -/
theorem distinct_eq_firsts (rows : List Row) :
    distinct rows = firsts (fun a b => a.key = b.key) rows := by
  unfold distinct firsts
  rw [distinctAfter_eq rows [] ∅ (fun key => ?_)]
  · rw [List.range_eq_range']
    rfl
  · constructor
    · intro h
      cases h
    · intro hex
      obtain ⟨row, hrow, -⟩ := hex
      cases hrow

end Row

/-! ## §2. Objects with equal texts. -/

namespace Json

/-- No name stands for two values. -/
def Functional (members : List (String × Json)) : Prop :=
  ∀ name value other, (name, value) ∈ members → (name, other) ∈ members → value = other

theorem functional_of_nodup {members : List (String × Json)} (h : (members.map (·.1)).Nodup) :
    Functional members := by
  intro name value other hvalue hother
  induction members with
  | nil => cases hvalue
  | cons member rest ih =>
    obtain ⟨hnew, hrest⟩ := List.nodup_cons.1 h
    rcases List.mem_cons.1 hvalue with hfirst | hlater
    · rcases List.mem_cons.1 hother with hsecond | hlater
      · exact (Prod.mk.inj (hfirst.trans hsecond.symm)).2
      · exact absurd (List.mem_map.2 ⟨_, hlater, (congrArg Prod.fst hfirst : name = member.1)⟩) hnew
    · rcases List.mem_cons.1 hother with hsecond | hlater'
      · exact absurd (List.mem_map.2 ⟨_, hlater, (congrArg Prod.fst hsecond : name = member.1)⟩) hnew
      · exact ih hrest hlater hlater'

theorem mem_normalizeMembers {name : String} {value : Json} {members : List (String × Json)} :
    (name, value) ∈ normalizeMembers members
      ↔ ∃ original, (name, original) ∈ members ∧ value = original.normalize := by
  induction members with
  | nil =>
    rw [normalizeMembers]
    simp only [List.not_mem_nil, false_and, exists_false]
  | cons member members ih =>
    obtain ⟨first, original⟩ := member
    rw [normalizeMembers, List.mem_cons, ih]
    simp only [List.mem_cons, Prod.mk.injEq, or_and_right, exists_or, and_assoc, exists_eq_left,
      exists_and_left]

theorem mem_of_mem_ofList {entry : String × Json} {pairs : List (String × Json)}
    (h : entry ∈ SortedEntries.ofList pairs) : entry ∈ pairs := by
  have hfold : ∀ (pairs entries : List (String × Json)),
      entry ∈ pairs.foldl (fun entries pair => SortedEntries.insert pair.1 pair.2 entries) entries →
      entry ∈ pairs ∨ entry ∈ entries := by
    intro pairs
    induction pairs with
    | nil => exact fun _ h => .inr h
    | cons pair rest ih =>
      intro entries h
      rcases ih _ h with hrest | hinsert
      · exact .inl (List.mem_cons_of_mem _ hrest)
      · rcases SortedEntries.mem_insert hinsert with rfl | hold
        · exact .inl List.mem_cons_self
        · exact .inr hold
  exact (hfold pairs [] h).elim id (fun hnil => nomatch hnil)

/-- A member under whose name there is no other value keeps its place among
sorted members. -/
theorem mem_ofList_of_functional {pairs : List (String × Json)} (h : Functional pairs)
    {name : String} {value : Json} (hmem : (name, value) ∈ pairs) :
    (name, value) ∈ SortedEntries.ofList pairs := by
  have hfold : ∀ (pairs entries : List (String × Json)),
      (∀ other, (name, other) ∈ pairs → other = value) →
      (name, value) ∈ pairs ∨ SortedEntries.find? name entries = some value →
      SortedEntries.find? name
        (pairs.foldl (fun entries pair => SortedEntries.insert pair.1 pair.2 entries) entries)
        = some value := by
    intro pairs
    induction pairs with
    | nil => exact fun entries _ hor => hor.elim (fun hnil => nomatch hnil) id
    | cons pair rest ih =>
      intro entries honly hor
      refine ih _ (fun other hother => honly other (List.mem_cons_of_mem _ hother)) ?_
      rw [SortedEntries.find?_insert]
      by_cases heq : name = pair.1
      · have hpair : pair.2 = value := honly pair.2 (by rw [heq]; exact List.mem_cons_self)
        rw [if_pos (Std.compare_eq_iff_eq.2 heq), hpair]
        exact .inr rfl
      · rw [if_neg (fun h => heq (Std.compare_eq_iff_eq.1 h))]
        refine hor.imp_left (fun hcons => ?_)
        exact (List.mem_cons.1 hcons).resolve_left (fun h => heq (congrArg Prod.fst h))
  have honly : ∀ other, (name, other) ∈ pairs → other = value :=
    fun other hother => h name other value hother hmem
  exact SortedEntries.mem_of_find? (hfold pairs [] honly (.inl hmem))

/-- **Of two objects with equal texts**, a member of one stands against a
member of the other that has the same name. -/
theorem SameText.exists_member {members others : List (String × Json)}
    (h : SameText (Json.object members).normalize (Json.object others).normalize)
    (hmembers : Functional members) {name : String} {value : Json}
    (hmem : (name, value) ∈ members) :
    ∃ other, (name, other) ∈ others ∧ SameText value.normalize other.normalize := by
  rw [normalize, normalize] at h
  cases h with
  | object hsame =>
    have hnormal : Functional (normalizeMembers members) := by
      intro name value other hvalue hother
      obtain ⟨original, horiginal, rfl⟩ := mem_normalizeMembers.1 hvalue
      obtain ⟨second, hsecond, rfl⟩ := mem_normalizeMembers.1 hother
      rw [hmembers name original second horiginal hsecond]
    obtain ⟨found, hfound, htext⟩ := hsame.exists_mem
      (mem_ofList_of_functional hnormal (mem_normalizeMembers.2 ⟨value, hmem, rfl⟩))
    obtain ⟨other, hother, rfl⟩ := mem_normalizeMembers.1 (mem_of_mem_ofList hfound)
    exact ⟨other, hother, htext⟩

end Json

/-! ## §3. Entities with equal texts. -/

/-- The members of a node. -/
def Node.members (n : Node) : List (String × Json) :=
  [("id", .int n.id), ("labels", .array (n.labels.toList.map .str)),
    ("properties", n.properties.toJson)]

/-- The members of a relationship. -/
def Relationship.members (r : Relationship) : List (String × Json) :=
  [("end", .int r.end), ("id", .int r.id), ("properties", r.properties.toJson),
    ("start", .int r.start), ("type", .str r.type)]

theorem Node.functional_members (n : Node) : Json.Functional n.members :=
  Json.functional_of_nodup (by decide : ["id", "labels", "properties"].Nodup)

theorem Relationship.functional_members (r : Relationship) : Json.Functional r.members :=
  Json.functional_of_nodup (by decide : ["end", "id", "properties", "start", "type"].Nodup)

/-- Under its id a node has a number. -/
theorem Node.eq_of_id_mem {n : Node} {value : Json} (h : ("id", value) ∈ n.members) :
    value = .int n.id := by
  simpa [members] using h

theorem Relationship.eq_of_id_mem {r : Relationship} {value : Json}
    (h : ("id", value) ∈ r.members) : value = .int r.id := by
  simpa [members] using h

theorem int_inj_of_sameText {m n : Nat}
    (h : Json.SameText (Json.int m).normalize (Json.int n).normalize) : m = n := by
  have hint : ∀ {i j : Int}, Json.SameText (.int i) (.int j) → i = j := by
    intro i j h
    cases h
    rfl
  rw [Json.normalize, Json.normalize] at h
  exact Int.ofNat.inj (hint h)

/-- **An entity is known from its text.** -/
theorem identity_eq_of_sameText {e f : Entity}
    (h : Json.SameText e.toJson.normalize f.toJson.normalize) : e.identity = f.identity := by
  cases e with
  | node n =>
    cases f with
    | node m =>
      have hmembers : Json.SameText (Json.object n.members).normalize
        (Json.object m.members).normalize := h
      obtain ⟨other, hother, hid⟩ := hmembers.exists_member n.functional_members List.mem_cons_self
      rw [Node.eq_of_id_mem hother] at hid
      exact congrArg EntityRef.node (int_inj_of_sameText hid)
    | relationship r =>
      have hmembers : Json.SameText (Json.object n.members).normalize
        (Json.object r.members).normalize := h
      -- a relationship has no labels
      obtain ⟨other, hother, -⟩ := hmembers.exists_member n.functional_members
        (List.mem_cons_of_mem _ List.mem_cons_self)
      simp [Relationship.members] at hother
  | relationship r =>
    cases f with
    | node m =>
      have hmembers : Json.SameText (Json.object r.members).normalize
        (Json.object m.members).normalize := h
      -- a node has no end
      obtain ⟨other, hother, -⟩ := hmembers.exists_member r.functional_members List.mem_cons_self
      simp [Node.members] at hother
    | relationship s =>
      have hmembers : Json.SameText (Json.object r.members).normalize
        (Json.object s.members).normalize := h
      obtain ⟨other, hother, hid⟩ := hmembers.exists_member r.functional_members
        (List.mem_cons_of_mem _ List.mem_cons_self)
      rw [Relationship.eq_of_id_mem hother] at hid
      exact congrArg EntityRef.relationship (int_inj_of_sameText hid)

/-! ## §4. Rows of solutions. -/

/-- What a solution shows for a variable. -/
def Bindings.shown (bindings : Bindings) (var : String) : Json :=
  match bindings.find? var with
  | some entity => entity.toJson
  | none => .null

theorem Row.ofBindings_eq (vars : List String) (bindings : Bindings) :
    Row.ofBindings vars bindings = Row.ofList (vars.map (fun var => (var, bindings.shown var))) :=
  rfl

namespace Row

theorem mem_put {f : String → Json} {column name : String} {value : Json}
    {cells : List (String × Json)} (h : ∀ cell ∈ cells, cell.2 = f cell.1) :
    (name, value) ∈ put column (f column) cells
      ↔ (name, value) = (column, f column) ∨ (name, value) ∈ cells := by
  induction cells with
  | nil => exact List.mem_cons
  | cons cell rest ih =>
    obtain ⟨hcell, hrest⟩ := List.forall_mem_cons.1 h
    rw [put]
    split
    next heq =>
      -- the cell that is set has the same value already
      have hsame : (column, f column) = cell := Prod.ext heq.symm (heq ▸ hcell.symm)
      rw [hsame, List.mem_cons, or_self_left]
    next => rw [List.mem_cons, ih hrest, List.mem_cons, or_left_comm]

/-- The cells of a row whose values go by the names of the columns. -/
theorem mem_ofList_iff {f : String → Json} {columns : List String} {name : String}
    {value : Json} : (name, value) ∈ (ofList (columns.map (fun column => (column, f column)))).cells
      ↔ name ∈ columns ∧ value = f name := by
  have hfold : ∀ (columns : List String) (cells : List (String × Json)),
      (∀ cell ∈ cells, cell.2 = f cell.1) →
      ((name, value) ∈ (columns.map (fun column => (column, f column))).foldl
          (fun row cell => put cell.1 cell.2 row) cells
        ↔ (name ∈ columns ∧ value = f name) ∨ (name, value) ∈ cells) := by
    intro columns
    induction columns with
    | nil => simp
    | cons column rest ih =>
      intro cells hcells
      have hput : ∀ cell ∈ put column (f column) cells, cell.2 = f cell.1 := by
        intro cell hcell
        rcases (mem_put hcells).1 hcell with heq | hold
        · rw [(Prod.mk.inj heq).1, (Prod.mk.inj heq).2]
        · exact hcells cell hold
      rw [List.map_cons, List.foldl_cons, ih _ hput, mem_put hcells, List.mem_cons, Prod.mk.injEq]
      constructor
      · rintro (⟨hmem, hvalue⟩ | ⟨rfl, hvalue⟩ | hold)
        · exact .inl ⟨.inr hmem, hvalue⟩
        · exact .inl ⟨.inl rfl, hvalue⟩
        · exact .inr hold
      · rintro (⟨rfl | hmem, hvalue⟩ | hold)
        · exact .inr (.inl ⟨rfl, hvalue⟩)
        · exact .inl ⟨hmem, hvalue⟩
        · exact .inr (.inr hold)
  refine (hfold columns [] (fun cell hcell => nomatch hcell)).trans ?_
  simp

end Row

/-- **The same entities** for some variables, or none for the same ones. -/
def SameEntities (vars : List String) (left right : Bindings) : Prop :=
  ∀ var ∈ vars, (left.find? var).map Entity.identity = (right.find? var).map Entity.identity

instance (vars : List String) : DecidableRel (SameEntities vars) :=
  fun left right => inferInstanceAs (Decidable (∀ var ∈ vars,
    (left.find? var).map Entity.identity = (right.find? var).map Entity.identity))

section

variable {store : Store} {vars : List String} {left right : Bindings}

/-- What an entity shows is not null. -/
theorem not_sameText_null (e : Entity) :
    ¬ Json.SameText e.toJson.normalize Json.null.normalize
      ∧ ¬ Json.SameText Json.null.normalize e.toJson.normalize := by
  cases e <;> constructor <;> intro h <;> cases h

theorem identity_eq_of_shown {var : String}
    (h : Json.SameText (left.shown var).normalize (right.shown var).normalize) :
    (left.find? var).map Entity.identity = (right.find? var).map Entity.identity := by
  unfold Bindings.shown at h
  cases hl : left.find? var with
  | none =>
    cases hr : right.find? var with
    | none => rfl
    | some f =>
      rw [hl, hr] at h
      exact absurd h (not_sameText_null f).2
  | some e =>
    cases hr : right.find? var with
    | none =>
      rw [hl, hr] at h
      exact absurd h (not_sameText_null e).1
    | some f =>
      rw [hl, hr] at h
      exact congrArg some (identity_eq_of_sameText h)

theorem sameEntities_of_key_eq
    (h : (Row.ofBindings vars left).key = (Row.ofBindings vars right).key) :
    SameEntities vars left right := by
  intro var hvar
  have hsame := Json.sameText_of_text h
  rw [Row.ofBindings_eq, Row.ofBindings_eq] at hsame
  have hfunctional : Json.Functional
      (Row.ofList (vars.map (fun var => (var, left.shown var)))).cells := by
    intro name value other hvalue hother
    rw [(Row.mem_ofList_iff.1 hvalue).2, (Row.mem_ofList_iff.1 hother).2]
  obtain ⟨other, hother, htext⟩ := Json.SameText.exists_member hsame hfunctional
    (Row.mem_ofList_iff.2 ⟨hvar, rfl⟩)
  rw [(Row.mem_ofList_iff.1 hother).2] at htext
  exact identity_eq_of_shown htext

/-- In one store the same entities show the same. -/
theorem ofBindings_eq_of_sameEntities (hleft : Search.BoundInStore store left)
    (hright : Search.BoundInStore store right) (h : SameEntities vars left right) :
    Row.ofBindings vars left = Row.ofBindings vars right := by
  rw [Row.ofBindings_eq, Row.ofBindings_eq]
  refine congrArg Row.ofList (List.map_congr_left (fun var hvar => ?_))
  have hsame := h var hvar
  unfold Bindings.shown
  cases hl : left.find? var with
  | none =>
    cases hr : right.find? var with
    | none => rfl
    | some f =>
      rw [hl, hr] at hsame
      cases hsame
  | some e =>
    cases hr : right.find? var with
    | none =>
      rw [hl, hr] at hsame
      cases hsame
    | some f =>
      rw [hl, hr] at hsame
      rw [Search.eq_of_identity (hleft var e hl) (hright var f hr) (Option.some.inj hsame)]

/-- **Rows of one search are the same, and have the same text**, if and only if
they show the same entities. -/
theorem key_eq_iff (hleft : Search.BoundInStore store left)
    (hright : Search.BoundInStore store right) :
    (Row.ofBindings vars left).key = (Row.ofBindings vars right).key
      ↔ SameEntities vars left right :=
  ⟨sameEntities_of_key_eq, fun h =>
    congrArg Row.key (ofBindings_eq_of_sameEntities hleft hright h)⟩

theorem ofBindings_eq_iff (hleft : Search.BoundInStore store left)
    (hright : Search.BoundInStore store right) :
    Row.ofBindings vars left = Row.ofBindings vars right ↔ SameEntities vars left right :=
  ⟨fun h => sameEntities_of_key_eq (congrArg Row.key h),
    ofBindings_eq_of_sameEntities hleft hright⟩

end

end PropertyGraph
