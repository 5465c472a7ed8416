/-
  PropertyGraph.Proofs.Json.SameData
  ──────────────────────────────────
  **ONE TEXT, ONE DATUM.**

  Values are the same data if they differ at most in the order of members,
  at whatever level (`SameData`).  An integer is never the same as a float,
  and the two zeros are different floats.

  With its members in the order of their names each datum has one form
  (`sameData_iff`), and that form has one text
  (`text_normalize_eq_iff`): what is written alike is equal, floats included.
-/
import PropertyGraph.Proofs.Json.Injective
import PropertyGraph.Proofs.Number.Decimal

namespace PropertyGraph.Json

/-! ## §1. The order of members. -/

/-- The same data: the same scalars, items one by one, and members by name. -/
inductive SameData : Json → Json → Prop where
  | null : SameData .null .null
  | bool (b : Bool) : SameData (.bool b) (.bool b)
  | int (i : Int) : SameData (.int i) (.int i)
  | float (x : Finite64) : SameData (.float x) (.float x)
  | str (s : String) : SameData (.str s) (.str s)
  | array {items others : List Json} (hlength : items.length = others.length)
      (h : ∀ (place : Nat) (item other : Json), items[place]? = some item →
        others[place]? = some other → SameData item other) : SameData (.array items) (.array others)
  | object {members others : List (String × Json)}
      (hnames : ∀ name, (lastMember? name members).isSome = (lastMember? name others).isSome)
      (h : ∀ name value other, lastMember? name members = some value →
        lastMember? name others = some other → SameData value other) :
      SameData (.object members) (.object others)

/-! ## §2. Normal order. -/

theorem normalizeItems_eq_map (items : List Json) :
    normalizeItems items = items.map normalize := by
  induction items with
  | nil => rfl
  | cons item items ih => rw [normalizeItems, ih, List.map_cons]

theorem lastMember?_cons (name : String) (member : String × Json)
    (members : List (String × Json)) : lastMember? name (member :: members)
      = (lastMember? name members).or (if member.1 = name then some member.2 else none) := by
  unfold lastMember?
  rw [List.reverse_cons, List.find?_append, List.find?_singleton, Option.map_or]
  refine congrArg (Option.or _) ?_
  by_cases heq : member.1 = name
  · simp [heq]
  · simp [heq]

/-- Under a name there is the last of its members, in normal order. -/
theorem find?_ofList_normalizeMembers (name : String) (members : List (String × Json)) :
    SortedEntries.find? name (SortedEntries.ofList (normalizeMembers members))
      = (lastMember? name members).map normalize := by
  have hfold : ∀ (members entries : List (String × Json)),
      SortedEntries.find? name ((normalizeMembers members).foldl
        (fun entries pair => SortedEntries.insert pair.1 pair.2 entries) entries)
        = ((lastMember? name members).map normalize).or (SortedEntries.find? name entries) := by
    intro members
    induction members with
    | nil => exact fun _ => rfl
    | cons member members ih =>
      intro entries
      rw [normalizeMembers, List.foldl_cons, ih, SortedEntries.find?_insert, lastMember?_cons]
      simp only [Std.compare_eq_iff_eq]
      cases lastMember? name members with
      | some value => rfl
      | none =>
        by_cases heq : name = member.1
        · simp [heq]
        · simp [heq, Ne.symm heq]
  exact (hfold members []).trans (Option.or_none)

theorem mem_of_lastMember? {name : String} {value : Json} {members : List (String × Json)}
    (h : lastMember? name members = some value) : (name, value) ∈ members := by
  obtain ⟨member, hfind, rfl⟩ := Option.map_eq_some_iff.1 h
  obtain rfl : member.1 = name := by simpa using List.find?_some hfind
  exact List.mem_reverse.1 (List.mem_of_find?_eq_some hfind)

theorem normalize_eq_of_sameData {j k : Json} (h : SameData j k) : j.normalize = k.normalize := by
  induction h with
  | null => rfl
  | bool => rfl
  | int => rfl
  | float => rfl
  | str => rfl
  | @array items others hlength _ ih =>
    rw [normalize, normalize, normalizeItems_eq_map, normalizeItems_eq_map]
    refine congrArg Json.array (List.ext_getElem (by simpa using hlength) (fun place hi ho => ?_))
    rw [List.getElem_map, List.getElem_map]
    exact ih place _ _ (List.getElem?_eq_getElem _) (List.getElem?_eq_getElem _)
  | @object members others hnames _ ih =>
    rw [normalize, normalize]
    refine congrArg Json.object (SortedEntries.ext_find? (SortedEntries.ascending_ofList _)
      (SortedEntries.ascending_ofList _) (fun name => ?_))
    rw [find?_ofList_normalizeMembers, find?_ofList_normalizeMembers]
    have hname := hnames name
    cases hm : lastMember? name members with
    | none =>
      rw [hm] at hname
      rw [Option.isNone_iff_eq_none.1 (Option.isSome_eq_false_iff.1 hname.symm)]
    | some value =>
      rw [hm] at hname
      obtain ⟨other, ho⟩ := Option.isSome_iff_exists.1 hname.symm
      rw [ho, Option.map_some, Option.map_some, ih name value other hm ho]

mutual

theorem sameData_of_normalize_eq : ∀ {j k : Json}, j.normalize = k.normalize → SameData j k
  | .null, k, h => by
    cases k <;> simp only [normalize, reduceCtorEq] at h
    exact .null
  | .bool b, k, h => by
    cases k <;> simp only [normalize, reduceCtorEq, Json.bool.injEq] at h
    exact h ▸ .bool b
  | .int i, k, h => by
    cases k <;> simp only [normalize, reduceCtorEq, Json.int.injEq] at h
    exact h ▸ .int i
  | .float x, k, h => by
    cases k <;> simp only [normalize, reduceCtorEq, Json.float.injEq] at h
    exact h ▸ .float x
  | .str s, k, h => by
    cases k <;> simp only [normalize, reduceCtorEq, Json.str.injEq] at h
    exact h ▸ .str s
  | .array items, k, h => by
    cases k <;> simp only [normalize, reduceCtorEq, Json.array.injEq] at h
    rename_i others
    rw [normalizeItems_eq_map, normalizeItems_eq_map] at h
    refine .array (by simpa using congrArg List.length h) (fun place item other hi ho => ?_)
    refine sameData_of_mem_items items item (List.mem_of_getElem? hi) ?_
    have hplace := congrArg (fun list => list[place]?) h
    simpa [hi, ho] using hplace
  | .object members, k, h => by
    cases k <;> simp only [normalize, reduceCtorEq, Json.object.injEq] at h
    rename_i others
    have hfind : ∀ name, (lastMember? name members).map normalize
        = (lastMember? name others).map normalize := by
      intro name
      rw [← find?_ofList_normalizeMembers, h, find?_ofList_normalizeMembers]
    refine .object (fun name => ?_) (fun name value other hm ho => ?_)
    · rw [← Option.isSome_map (f := normalize), hfind, Option.isSome_map]
    · refine sameData_of_mem_members members _ (mem_of_lastMember? hm) ?_
      have hname := hfind name
      rw [hm, ho] at hname
      exact Option.some.inj hname

theorem sameData_of_mem_items : ∀ (items : List Json), ∀ item ∈ items, ∀ {k : Json},
    item.normalize = k.normalize → SameData item k
  | item :: items, other, hmem, k, h => by
    by_cases heq : other = item
    · rw [heq] at h ⊢
      exact sameData_of_normalize_eq h
    · exact sameData_of_mem_items items other ((List.mem_cons.1 hmem).resolve_left heq) h

theorem sameData_of_mem_members : ∀ (members : List (String × Json)), ∀ member ∈ members,
    ∀ {k : Json}, member.2.normalize = k.normalize → SameData member.2 k
  | (name, value) :: members, other, hmem, k, h => by
    by_cases heq : other = (name, value)
    · rw [heq] at h ⊢
      exact sameData_of_normalize_eq h
    · exact sameData_of_mem_members members other ((List.mem_cons.1 hmem).resolve_left heq) h

end

/-- **Values are the same data** exactly if they have the same normal order. -/
theorem sameData_iff {j k : Json} : SameData j k ↔ j.normalize = k.normalize :=
  ⟨normalize_eq_of_sameData, sameData_of_normalize_eq⟩

/-! ## §3. Texts. -/

mutual

/-- What is written alike is equal. -/
theorem eq_of_sameText : ∀ {j k : Json}, SameText j k → j = k
  | _, _, .null => rfl
  | _, _, .bool _ => rfl
  | _, _, .int _ => rfl
  | _, _, .float h => congrArg Json.float (Finite64.text_injective h)
  | _, _, .str _ => rfl
  | _, _, .array h => congrArg Json.array (eq_of_sameItems h)
  | _, _, .object h => congrArg Json.object (eq_of_sameMembers h)

theorem eq_of_sameItems : ∀ {items others : List Json}, SameItems items others → items = others
  | _, _, .nil => rfl
  | _, _, .cons h hrest => by rw [eq_of_sameText h, eq_of_sameItems hrest]

theorem eq_of_sameMembers : ∀ {members others : List (String × Json)},
    SameMembers members others → members = others
  | _, _, .nil => rfl
  | _, _, .cons h hrest => by rw [eq_of_sameText h, eq_of_sameMembers hrest]

end

/-- **Different values have different texts.** -/
theorem text_injective {layout : Layout} {j k : Json} (h : text layout j = text layout k) :
    j = k :=
  eq_of_sameText (sameText_of_text h)

/-- In normal order, values have the same text exactly if they are the same data. -/
theorem text_normalize_eq_iff {layout : Layout} {j k : Json} :
    text layout j.normalize = text layout k.normalize ↔ SameData j k := by
  rw [sameData_iff]
  exact ⟨text_injective, congrArg (text layout)⟩

end PropertyGraph.Json
