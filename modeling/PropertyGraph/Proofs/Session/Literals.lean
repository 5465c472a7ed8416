/-
  PropertyGraph.Proofs.Session.Literals
  ─────────────────────────────────────
  **A QUERY BRINGS IN WHAT FILES GIVE BACK.**

  The literals of a query are strings, integers and finite floats.  These are
  in their saved form and not nested at all, so of the properties of a query
  only one thing can be in doubt: whether the floats in it read back from their
  text (`carries_comesBack_of_parse`).
-/
import PropertyGraph.Proofs.Files.Preserved
import PropertyGraph.Proofs.Query.Denotation
import PropertyGraph.Proofs.Session.Effects

namespace PropertyGraph

/-! ## §1. Properties with such values. -/

/-- A value that a literal can have. -/
def Value.IsLiteral : Value → Prop
  | .str _ | .int _ | .float (.finite _) => True
  | _ => False

theorem Value.savedForm_of_isLiteral {value : Value} (h : value.IsLiteral) :
    value.savedForm = value := by
  match value, h with
  | .str _, _ | .int _, _ | .float (.finite _), _ => rfl

theorem Value.depth_of_isLiteral {value : Value} (h : value.IsLiteral) :
    value.toJson.depth = 0 := by
  match value, h with
  | .str _, _ | .int _, _ | .float (.finite _), _ => rfl

/-- **Properties with the values of literals come back**, if their floats do. -/
theorem PropertyMap.comesBack_of_isLiteral {properties : PropertyMap}
    (h : ∀ key value, properties.find? key = some value → value.IsLiteral)
    (hfloats : properties.AllFloats Json.ReadsBack) : properties.ComesBack := by
  have hentry : ∀ entry ∈ properties.entries, entry.2.IsLiteral := fun entry hmem =>
    h entry.1 entry.2 (SortedEntries.find?_of_mem properties.normal.1 hmem)
  have hsaved : Value.savedEntries properties.entries = properties.entries := by
    rw [Value.savedEntries_eq_map]
    refine (List.map_congr_left (fun entry hmem => ?_)).trans (List.map_id _)
    rw [Value.savedForm_of_isLiteral (hentry entry hmem)]
    rfl
  have hdepth : Json.depthMembers (Value.entriesToJson properties.entries) ≤ 0 := by
    refine Json.depthMembers_le (fun member hmem => ?_)
    rw [Value.entriesToJson_eq_map] at hmem
    obtain ⟨entry, hentryMem, rfl⟩ := List.mem_map.1 hmem
    exact Nat.le_of_eq (Value.depth_of_isLiteral (hentry entry hentryMem))
  refine ⟨hfloats, ?_, ?_⟩
  · cases properties
    simp only [PropertyMap.savedForm, hsaved]
  · have hlimit : nestingLimit = 127 := rfl
    rw [hlimit, PropertyMap.toJson, Json.depth]
    omega

/-! ## §2. Queries. -/

namespace Query

theorem isLiteral_of_denotes {literal : SpelledLiteral} {value : Value}
    (h : literal.Denotes value) : value.IsLiteral := by
  cases literal with
  | string pieces =>
    obtain ⟨s, rfl, -⟩ := h
    trivial
  | number n =>
    obtain ⟨-, i, rfl, -⟩ | ⟨-, x, rfl, -⟩ := h
    · trivial
    · trivial

/-- The property map has the values of literals only. -/
def LiteralsOnly (properties : PropertyMap) : Prop :=
  ∀ key value, properties.find? key = some value → value.IsLiteral

theorem literalsOnly_of_propertiesDenote {pairs : SpelledProperties} {properties : PropertyMap}
    (h : PropertiesDenote pairs properties) : LiteralsOnly properties := by
  intro key value hfound
  obtain ⟨literal, -, hdenotes⟩ := (h.last key value).1 hfound
  exact isLiteral_of_denotes hdenotes

theorem literalsOnly_of_itemDenotes {item : PatternItem SpelledProperties}
    {value : PatternItem PropertyMap} (h : item.Denotes value) :
    LiteralsOnly value.properties := by
  cases item with
  | node d =>
    cases value with
    | node e => exact literalsOnly_of_propertiesDenote h.2.2
    | relationship e => exact h.elim
  | relationship d =>
    cases value with
    | node e => exact h.elim
    | relationship e => exact literalsOnly_of_propertiesDenote h.2.2

/-- What all values of a list have in common with what they are read from. -/
theorem forall_of_forall₂ {α β : Type} {R : α → β → Prop} {q : β → Prop} {items : List α}
    {values : List β} (h : List.Forall₂ R items values) (hq : ∀ a b, R a b → q b) :
    ∀ b ∈ values, q b := by
  induction h with
  | nil => exact fun _ hmem => absurd hmem List.not_mem_nil
  | cons hab _ ih => exact List.forall_mem_cons.2 ⟨hq _ _ hab, ih⟩

theorem carries_literalsOnly_of_denotes {spelled : SpelledStatement} {statement : GraphStatement}
    (h : spelled.Denotes statement) : statement.Carries LiteralsOnly := by
  cases spelled with
  | create pattern =>
    obtain ⟨values, rfl, hpattern⟩ := h
    exact forall_of_forall₂ hpattern (fun _ _ helement =>
      forall_of_forall₂ helement (fun _ _ => literalsOnly_of_itemDenotes))
  | search pattern condition =>
    obtain ⟨_, _, rfl, -⟩ := h
    trivial
  | project vars distinct =>
    obtain rfl := h
    trivial
  | delete vars =>
    obtain rfl := h
    trivial

theorem Statement.Carries.mono {p q r : PropertyMap → Prop} {statement : GraphStatement}
    (hp : statement.Carries p) (hq : statement.Carries q)
    (h : ∀ properties, p properties → q properties → r properties) : statement.Carries r := by
  cases statement with
  | create pattern =>
    intro element helement item hitem
    exact h _ (hp element helement item hitem) (hq element helement item hitem)
  | search | project | delete => trivial

/-- **What a text brings in comes back from files**, if its floats do. -/
theorem carries_comesBack_of_parse {text : String} {statements : List GraphStatement}
    (h : parse text = .ok statements)
    (hfloats : ∀ statement ∈ statements,
      statement.Carries (PropertyMap.AllFloats Json.ReadsBack)) :
    ∀ statement ∈ statements, statement.Carries PropertyMap.ComesBack := by
  obtain ⟨spelled, -, hdenotes⟩ := exists_denotes_of_parse h
  have hliterals : ∀ statement ∈ statements, statement.Carries LiteralsOnly :=
    forall_of_forall₂ hdenotes (fun _ _ => carries_literalsOnly_of_denotes)
  intro statement hmem
  exact (hliterals statement hmem).mono (hfloats statement hmem)
    (fun _ honly hback => PropertyMap.comesBack_of_isLiteral honly hback)

end Query

end PropertyGraph
