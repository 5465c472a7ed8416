/-
  PropertyGraph.Proofs.Query.WellFormed
  ─────────────────────────────────────
  **WHAT EVERY STATEMENT OF A TEXT LOOKS LIKE.**

  The types of statements admit more than a text can say: an empty list of
  variables, a chain that begins with a relationship, a property that is an
  array.  The grammar rules all of it out.

    * `Alternating` — a node, and then relationships and nodes in turn.
    * `Statement.WellFormed` — a pattern of such chains with the values of
      literals, or a list of variables, and neither is empty.

  Main result:
    * `wellFormed_of_parse` — a text that is read gives one statement or more,
      all of them well-formed.
-/
import PropertyGraph.Proofs.Query.Language
import PropertyGraph.Proofs.Session.Literals

namespace PropertyGraph.Query

/-! ## §1. Chains. -/

/-- A node first and last, with relationships and nodes in turn between. -/
inductive Alternating {π : Type} : PatternElement π → Prop where
  | node (descriptor : NodePattern π) : Alternating [.node descriptor]
  | step (descriptor : NodePattern π) (relationship : RelationshipPattern π)
    {rest : PatternElement π} :
    Alternating rest → Alternating (.node descriptor :: .relationship relationship :: rest)

/-- Steps spelled behind a node make a chain with it. -/
theorem alternating_of_many_step {steps : List (PatternElement SpelledProperties)}
    {tokens : List Token} (h : Spelling.Many Spelling.step steps tokens) :
    ∀ descriptor, Alternating (.node descriptor :: steps.flatten) := by
  induction h with
  | nil => exact fun descriptor => .node descriptor
  | cons hstep _ ih =>
    intro descriptor
    obtain ⟨relationship, next, _, _, rfl, -⟩ := hstep
    exact .step descriptor relationship (ih next)

theorem alternating_of_spelling {element : PatternElement SpelledProperties}
    {tokens : List Token} (h : Spelling.element element tokens) : Alternating element := by
  obtain ⟨descriptor, steps, _, _, rfl, -, hsteps, -⟩ := h
  exact alternating_of_many_step hsteps descriptor

/-- Evaluation keeps the kind of each position. -/
theorem Alternating.of_denotes {spelled : PatternElement SpelledProperties}
    (h : Alternating spelled) : ∀ {values : PatternElement PropertyMap},
    List.Forall₂ PatternItem.Denotes spelled values → Alternating values := by
  induction h with
  | node descriptor =>
    rintro _ (_ | ⟨hnode, hnil⟩)
    cases hnil
    rename_i value
    cases value with
    | node found => exact .node found
    | relationship found => exact hnode.elim
  | step descriptor relationship _ ih =>
    rintro _ (_ | ⟨hnode, hothers⟩)
    obtain _ | ⟨hrelationship, hrest⟩ := hothers
    rename_i value other rest
    cases value with
    | relationship found => exact hnode.elim
    | node found =>
      cases other with
      | node wrong => exact hrelationship.elim
      | relationship drawn => exact .step found drawn (ih hrest)

/-! ## §2. Lists with commas. -/

section

variable {α : Type} {phrase : Spelling α} {items : List α} {tokens : List Token}

theorem forall_of_many {p : α → Prop} (h : Spelling.Many phrase items tokens)
    (hp : ∀ a tokens, phrase a tokens → p a) : ∀ a ∈ items, p a := by
  induction h with
  | nil => exact fun _ hmem => absurd hmem List.not_mem_nil
  | cons ha _ ih => exact List.forall_mem_cons.2 ⟨hp _ _ ha, ih⟩

theorem ne_nil_of_commaList (h : Spelling.commaList phrase items tokens) : items ≠ [] := by
  obtain ⟨a, others, _, _, rfl, -⟩ := h
  exact List.cons_ne_nil a others

theorem forall_of_commaList {p : α → Prop} (h : Spelling.commaList phrase items tokens)
    (hp : ∀ a tokens, phrase a tokens → p a) : ∀ a ∈ items, p a := by
  obtain ⟨a, others, _, _, rfl, ha, hothers, -⟩ := h
  refine List.forall_mem_cons.2 ⟨hp _ _ ha, forall_of_many hothers (fun b _ hb => ?_)⟩
  obtain ⟨_, hb, -⟩ := hb
  exact hp _ _ hb

end

/-! ## §3. Statements. -/

/-- One chain or more, and nothing but values of literals. -/
structure Pattern.WellFormed (pattern : GraphPattern) : Prop where
  ne_nil : pattern ≠ []
  alternating : ∀ element ∈ pattern, Alternating element
  literals : ∀ element ∈ pattern, ∀ item ∈ element, LiteralsOnly item.properties

/-- What a text can say. -/
def Statement.WellFormed : GraphStatement → Prop
  | .create pattern => Pattern.WellFormed pattern
  | .search pattern condition =>
    Pattern.WellFormed pattern ∧ ∀ c, condition = some c → c.value.IsLiteral
  | .project vars _ | .delete vars => vars ≠ []

/-- The same of a pattern before its literals have values. -/
theorem Pattern.wellFormed_of_denotes {spelled : Pattern SpelledProperties}
    {pattern : GraphPattern} {tokens : List Token} (hspelling : Spelling.pattern spelled tokens)
    (h : PatternDenotes spelled pattern) : Pattern.WellFormed pattern where
  ne_nil := by
    rintro rfl
    exact ne_nil_of_commaList hspelling (List.forall₂_nil_right_iff.1 h)
  alternating := by
    have halternating : ∀ element ∈ spelled, Alternating element :=
      forall_of_commaList hspelling (fun _ _ => alternating_of_spelling)
    exact forall_of_forall₂ ((List.forall₂_and_left _ _).2 ⟨halternating, h⟩)
      (fun _ _ hboth => hboth.1.of_denotes hboth.2)
  literals := forall_of_forall₂ h (fun _ _ helement =>
    forall_of_forall₂ helement (fun _ _ => literalsOnly_of_itemDenotes))

theorem Statement.wellFormed_of_denotes {spelled : SpelledStatement} {statement : GraphStatement}
    {tokens : List Token} (hspelling : Spelling.statement spelled tokens)
    (h : spelled.Denotes statement) : statement.WellFormed := by
  cases spelled with
  | create pattern =>
    obtain ⟨values, rfl, hvalues⟩ := h
    obtain ⟨_, hpattern, -⟩ := hspelling
    exact Pattern.wellFormed_of_denotes hpattern hvalues
  | search pattern condition =>
    obtain ⟨values, value, rfl, hvalues, hvalue⟩ := h
    obtain ⟨_, _, hpattern, -⟩ := hspelling
    refine ⟨Pattern.wellFormed_of_denotes hpattern hvalues, ?_⟩
    rintro c rfl
    cases condition with
    | none => exact hvalue.elim
    | some source => exact isLiteral_of_denotes hvalue.2.2
  | project vars distinct =>
    obtain rfl := h
    cases distinct with
    | false =>
      obtain ⟨⟨_, hvars, -⟩, -⟩ := hspelling
      exact ne_nil_of_commaList hvars
    | true =>
      obtain ⟨_, ⟨_, hvars, -⟩, -⟩ := hspelling
      exact ne_nil_of_commaList hvars
  | delete vars =>
    obtain rfl := h
    obtain ⟨_, hvars, -⟩ := hspelling
    exact ne_nil_of_commaList hvars

/-! ## §4. Texts. -/

/-- Each statement of a query is spelled by some of its tokens. -/
theorem forall_of_spelling_query {statements : List SpelledStatement} {tokens : List Token}
    (h : Spelling.query statements tokens) :
    statements ≠ [] ∧ ∀ s ∈ statements, ∃ tokens, Spelling.statement s tokens := by
  obtain ⟨s, others, _, _, rfl, hs, hothers, -⟩ := h
  refine ⟨List.cons_ne_nil s others, List.forall_mem_cons.2 ⟨⟨_, hs⟩, ?_⟩⟩
  refine forall_of_many hothers (fun other tokens hother => ?_)
  obtain hother | ⟨rest, hother, -⟩ := hother
  · exact ⟨tokens, hother⟩
  · exact ⟨rest, hother⟩

/-- **A text that is read gives well-formed statements**, and at least one. -/
theorem wellFormed_of_parse {text : String} {statements : List GraphStatement}
    (h : parse text = .ok statements) :
    statements ≠ [] ∧ ∀ statement ∈ statements, statement.WellFormed := by
  obtain ⟨spelled, hread, hdenotes⟩ := exists_denotes_of_parse h
  obtain ⟨_, _, _, -, -, -, hquery⟩ := readStatements_eq_ok_iff.1 hread
  obtain ⟨hne, hspellings⟩ := forall_of_spelling_query hquery
  constructor
  · rintro rfl
    exact hne (List.forall₂_nil_right_iff.1 hdenotes)
  · refine forall_of_forall₂ ((List.forall₂_and_left _ _).2 ⟨hspellings, hdenotes⟩) ?_
    rintro source statement ⟨⟨tokens, hspelling⟩, hstatement⟩
    exact Statement.wellFormed_of_denotes hspelling hstatement

end PropertyGraph.Query
