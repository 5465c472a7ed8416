/-
  PropertyGraph.Proofs.Query.Rules
  ────────────────────────────────
  **EVERY RULE READS ITS PHRASE.**

  The rules of the grammar from the tokens up: each reading is sound and
  complete for its phrase.  Where a rule may leave something out or goes on
  repeating, what may follow it is spelled out in the lists of kinds below,
  and that no reading takes what belongs to the next rule is decided on them.

  One place is not decided by kinds of tokens: directly behind RETURN the word
  DISTINCT could be a variable as well.  There the grammar sides with the
  keyword, and so does the reading.
-/
import PropertyGraph.Proofs.Query.Tokens

namespace PropertyGraph.Query

open PropertyGraph.Text
open Reading

/-! ## §1. What may follow. -/

/-- After a statement. -/
def afterStatement : List Kind :=
  [.mark .semicolon, .keyword .create, .keyword .search, .keyword .project, .keyword .delete]

/-- After a pattern. -/
def afterPattern : List Kind := .keyword .condition :: afterStatement

/-- After an element of a pattern. -/
def afterElement : List Kind := .mark .comma :: afterPattern

/-! ## §2. Properties. -/

theorem begins_name : Begins [.name] Spelling.name :=
  begins_single (fun _ => List.mem_singleton_self _)

theorem sound_property : Sound property Spelling.property := by
  intro text p rest hread
  obtain ⟨key, m₁, hkey, hread⟩ := read_bind_eq_some.1 hread
  obtain ⟨_, m₂, hcolon, hread⟩ := read_bind_eq_some.1 hread
  obtain ⟨value, m₃, hvalue, hread⟩ := read_bind_eq_some.1 hread
  obtain ⟨rfl, rfl⟩ := read_pure_eq_some hread
  obtain ⟨_, rfl, hkeyLaid⟩ := sound_name .propertyKey _ _ _ hkey
  obtain ⟨_, rfl, hcolonLaid⟩ := sound_mark .colon _ _ _ hcolon
  obtain ⟨_, rfl, hvalueLaid⟩ := sound_literal _ _ _ hvalue
  exact ⟨_, rfl, hkeyLaid.append (hcolonLaid.append hvalueLaid)⟩

theorem complete_property :
    Complete [.mark .comma, .mark .closeBrace] property Spelling.property := by
  intro h tokens text rest heq hlaid hrest
  obtain ⟨key, value⟩ := h
  subst heq
  obtain ⟨m₁, hkey, hlaid⟩ := hlaid.uncons
  obtain ⟨m₂, hcolon, hvalue⟩ := hlaid.uncons
  have hread := complete_literal (by decide) value _ m₂ rest rfl hvalue hrest
  refine (read_bind_of (complete_name _ .propertyKey key _ _ _ rfl hkey
    (hlaid.ahead hrest))).trans ?_
  refine (read_bind_of (complete_mark _ .colon () _ _ _ rfl hcolon (hvalue.ahead hrest))).trans ?_
  exact (read_bind_of hread).trans rfl

theorem begins_property : Begins [.name] Spelling.property := by
  intro p tokens heq
  subst heq
  exact ⟨_, _, rfl, List.mem_singleton_self _⟩

theorem sound_properties : Sound properties Spelling.braces := by
  intro text pairs rest hread
  obtain ⟨_, m₁, hopen, hread⟩ := read_bind_eq_some.1 hread
  obtain ⟨items, m₂, hpairs, hread⟩ := read_bind_eq_some.1 hread
  obtain ⟨_, m₃, hclose, hread⟩ := read_bind_eq_some.1 hread
  obtain ⟨rfl, rfl⟩ := read_pure_eq_some hread
  obtain ⟨_, rfl, hopenLaid⟩ := sound_mark .openBrace _ _ _ hopen
  obtain ⟨inner, hphrase, hinner⟩ := sound_property.separated (sound_mark .comma) _ _ _ hpairs
  obtain ⟨_, rfl, hcloseLaid⟩ := sound_mark .closeBrace _ _ _ hclose
  exact ⟨_, ⟨inner, hphrase, rfl⟩, hopenLaid.append (hinner.append hcloseLaid)⟩

theorem complete_properties (follow : List Kind) : Complete follow properties Spelling.braces := by
  intro pairs tokens text rest h hlaid hrest
  obtain ⟨inner, hpairs, rfl⟩ := h
  have hseparated : Complete [.mark .closeBrace] (separated property (symbol ","))
      (Spelling.commaList Spelling.property) :=
    complete_property.separated begins_property (complete_mark _ .comma) (absent_mark .comma)
      (by decide)
  obtain ⟨m₁, hopen, hlaid⟩ := hlaid.uncons
  obtain ⟨m₂, hinner, hclose⟩ := hlaid.split
  -- the closing brace ends the list
  have hahead : Ahead [.mark .closeBrace] m₂ := hclose.ahead hrest
  refine (read_bind_of (complete_mark _ .openBrace () _ _ _ rfl hopen
    (begins_property.commaList.ahead hpairs hinner hahead))).trans ?_
  refine (read_bind_of (hseparated pairs inner _ _ hpairs hinner hahead)).trans ?_
  exact (read_bind_of (complete_mark _ .closeBrace () _ _ _ rfl hclose hrest)).trans rfl

theorem absent_properties : Absent [.mark .openBrace, .literal] properties :=
  (absent_mark .openBrace).bind

theorem begins_braces : Begins [.mark .openBrace] Spelling.braces := by
  intro pairs tokens h
  obtain ⟨inner, -, rfl⟩ := h
  exact ⟨_, _, rfl, List.mem_singleton_self _⟩

/-- No braces are the same as no pairs. -/
theorem properties_iff {pairs : SpelledProperties} {tokens : List Token} :
    Spelling.properties pairs tokens
      ↔ ∃ p, Spelling.optional Spelling.braces p tokens ∧ p.getD [] = pairs := by
  constructor
  · intro h
    rcases h with ⟨rfl, rfl⟩ | hbraces
    · exact ⟨none, rfl, rfl⟩
    · exact ⟨some pairs, hbraces, rfl⟩
  · intro h
    obtain ⟨p, hp, rfl⟩ := h
    cases p with
    | none => exact .inl ⟨rfl, hp⟩
    | some pairs => exact .inr hp

/-! ## §3. Descriptors. -/

variable {α : Type}

/-- Nodes and relationships are described alike: between two marks a variable, a
name behind a colon, and properties, each of which may be left out. -/
def descriptor (opening closing : Mark) (name : Rule)
    (make : Option String → Option String → SpelledProperties → α) : Reading α := do
  symbol opening.text
  let var ← optional variableName
  let kind ← optional (classifier name)
  let pairs ← optional properties
  symbol closing.text
  return make var kind (pairs.getD [])

/-- The phrase of `descriptor`. -/
def descriptorPhrase (opening closing : Mark)
    (make : Option String → Option String → SpelledProperties → α) : Spelling α :=
  fun a tokens => ∃ var kind pairs inner, a = make var kind pairs
    ∧ Spelling.details var kind pairs inner ∧ tokens = .mark opening :: (inner ++ [.mark closing])

theorem sound_classifier (name : Rule) :
    Sound (classifier name) (Spelling.behind (.mark .colon) Spelling.name) :=
  Sound.behind (sound_mark .colon) (sound_name name)

theorem complete_classifier (follow : List Kind) (name : Rule) :
    Complete follow (classifier name) (Spelling.behind (.mark .colon) Spelling.name) :=
  Complete.behind (complete_mark _ .colon) (complete_name follow name)
    begins_name

theorem sound_descriptor (opening closing : Mark) (name : Rule)
    (make : Option String → Option String → SpelledProperties → α) :
    Sound (descriptor opening closing name make) (descriptorPhrase opening closing make) := by
  intro text a rest hread
  obtain ⟨_, m₁, hopen, hread⟩ := read_bind_eq_some.1 hread
  obtain ⟨var, m₂, hvar, hread⟩ := read_bind_eq_some.1 hread
  obtain ⟨kind, m₃, hkind, hread⟩ := read_bind_eq_some.1 hread
  obtain ⟨pairs, m₄, hpairs, hread⟩ := read_bind_eq_some.1 hread
  obtain ⟨_, m₅, hclose, hread⟩ := read_bind_eq_some.1 hread
  obtain ⟨rfl, rfl⟩ := read_pure_eq_some hread
  obtain ⟨_, rfl, hopenLaid⟩ := sound_mark opening _ _ _ hopen
  obtain ⟨v, hv, hvarLaid⟩ := (sound_name .variable).optional _ _ _ hvar
  obtain ⟨c, hc, hkindLaid⟩ := (sound_classifier name).optional _ _ _ hkind
  obtain ⟨p, hp, hpairsLaid⟩ := sound_properties.optional _ _ _ hpairs
  obtain ⟨_, rfl, hcloseLaid⟩ := sound_mark closing _ _ _ hclose
  have hdetails : Spelling.details var kind (pairs.getD []) (v ++ (c ++ p)) :=
    ⟨v, c, p, hv, hc, properties_iff.2 ⟨pairs, hp, rfl⟩, rfl⟩
  have hinner := hvarLaid.append (hkindLaid.append hpairsLaid)
  exact ⟨_, ⟨var, kind, _, _, rfl, hdetails, rfl⟩, hopenLaid.append (hinner.append hcloseLaid)⟩

theorem complete_descriptor (follow : List Kind) (opening closing : Mark) (name : Rule)
    (make : Option String → Option String → SpelledProperties → α)
    (hclosing : closing ≠ .openBrace ∧ closing ≠ .colon) :
    Complete follow (descriptor opening closing name make)
      (descriptorPhrase opening closing make) := by
  intro a tokens text rest h hlaid hrest
  obtain ⟨var, kind, pairs, inner, rfl, hdetails, rfl⟩ := h
  obtain ⟨v, c, p, hv, hc, hp, rfl⟩ := hdetails
  obtain ⟨q, hq, rfl⟩ := properties_iff.1 hp
  obtain ⟨m₁, hopen, hlaid⟩ := hlaid.uncons
  obtain ⟨m₅, hinner, hclose⟩ := hlaid.split
  obtain ⟨m₂, hvar, hinner⟩ := hinner.split
  obtain ⟨m₃, hkind, hpairs⟩ := hinner.split
  -- from the end to the front: what stands after each part
  have hbegins : Begins [.mark .colon] (Spelling.behind (.mark .colon) Spelling.name) :=
    begins_behind (List.mem_singleton_self _)
  have h₄ : Ahead [.mark closing] m₅ := hclose.ahead hrest
  have h₃ : Ahead [.mark .openBrace, .mark closing] m₃ :=
    begins_braces.optional_ahead hq hpairs h₄
  have h₂ : Ahead [.mark .colon, .mark .openBrace, .mark closing] m₂ :=
    hbegins.optional_ahead hc hkind h₃
  have h₁ : Ahead [.name, .mark .colon, .mark .openBrace, .mark closing] m₁ :=
    begins_name.optional_ahead hv hvar h₂
  -- and none of it can be taken by the part before
  have hvarRead : Complete [.mark .colon, .mark .openBrace, .mark closing]
      (optional variableName) (Spelling.optional Spelling.name) :=
    (complete_name _ .variable).optional (absent_name .variable) (by cases closing <;> decide)
  have hkindRead : Complete [.mark .openBrace, .mark closing] (optional (classifier name))
      (Spelling.optional (Spelling.behind (.mark .colon) Spelling.name)) :=
    (complete_classifier _ name).optional (absent_mark .colon).bind
      (by revert hclosing; cases closing <;> decide)
  have hpairsRead : Complete [.mark closing] (optional properties)
      (Spelling.optional Spelling.braces) :=
    (complete_properties _).optional absent_properties
      (by revert hclosing; cases closing <;> decide)
  refine (read_bind_of (complete_mark _ opening () _ _ _ rfl hopen h₁)).trans ?_
  refine (read_bind_of (hvarRead _ _ _ _ hv hvar h₂)).trans ?_
  refine (read_bind_of (hkindRead _ _ _ _ hc hkind h₃)).trans ?_
  refine (read_bind_of (hpairsRead _ _ _ _ hq hpairs h₄)).trans ?_
  exact (read_bind_of (complete_mark _ closing () _ _ _ rfl hclose hrest)).trans rfl

theorem sound_nodePattern : Sound nodePattern Spelling.node := by
  intro text d rest hread
  obtain ⟨tokens, ⟨var, label, pairs, inner, rfl, hdetails, rfl⟩, hlaid⟩ :=
    sound_descriptor .openParen .closeParen .label NodePattern.mk text d rest hread
  exact ⟨_, ⟨inner, hdetails, rfl⟩, hlaid⟩

theorem complete_nodePattern (follow : List Kind) : Complete follow nodePattern Spelling.node := by
  intro h tokens text rest hex hlaid hrest
  obtain ⟨var, label, pairs⟩ := h
  obtain ⟨inner, hdetails, rfl⟩ := hex
  exact complete_descriptor follow .openParen .closeParen .label NodePattern.mk (by decide)
    _ _ text rest
    ⟨var, label, pairs, inner, rfl, hdetails, rfl⟩ hlaid hrest

theorem begins_node : Begins [.mark .openParen] Spelling.node := by
  intro d tokens h
  obtain ⟨inner, -, rfl⟩ := h
  exact ⟨_, _, rfl, List.mem_singleton_self _⟩

theorem sound_relationshipPattern : Sound relationshipPattern Spelling.relationship := by
  intro text d rest hread
  obtain ⟨tokens, ⟨var, type, pairs, inner, rfl, hdetails, rfl⟩, hlaid⟩ :=
    sound_descriptor .openArrow .closeArrow .relationshipType RelationshipPattern.mk
      text d rest hread
  exact ⟨_, ⟨inner, hdetails, rfl⟩, hlaid⟩

theorem complete_relationshipPattern (follow : List Kind) :
    Complete follow relationshipPattern Spelling.relationship := by
  intro h tokens text rest hex hlaid hrest
  obtain ⟨var, type, pairs⟩ := h
  obtain ⟨inner, hdetails, rfl⟩ := hex
  exact complete_descriptor follow .openArrow .closeArrow .relationshipType
    RelationshipPattern.mk (by decide) _ _ text rest
    ⟨var, type, pairs, inner, rfl, hdetails, rfl⟩ hlaid hrest

/-! ## §4. Patterns. -/

theorem sound_step : Sound step Spelling.step := by
  intro text items rest hread
  obtain ⟨r, m₁, hr, hread⟩ := read_bind_eq_some.1 hread
  obtain ⟨d, m₂, hd, hread⟩ := read_bind_eq_some.1 hread
  obtain ⟨rfl, rfl⟩ := read_pure_eq_some hread
  obtain ⟨first, hfirst, hfirstLaid⟩ := sound_relationshipPattern _ _ _ hr
  obtain ⟨tail, htail, htailLaid⟩ := sound_nodePattern _ _ _ hd
  exact ⟨first ++ tail, ⟨r, d, first, tail, rfl, hfirst, htail, rfl⟩, hfirstLaid.append htailLaid⟩

theorem complete_step (follow : List Kind) : Complete follow step Spelling.step := by
  intro items tokens text rest h hlaid hrest
  obtain ⟨r, d, first, tail, rfl, hfirst, htail, rfl⟩ := h
  obtain ⟨mid, hfirstLaid, htailLaid⟩ := hlaid.split
  refine (read_bind_of (complete_relationshipPattern _ _ _ _ _ hfirst hfirstLaid
    (begins_node.ahead htail htailLaid hrest))).trans ?_
  exact (read_bind_of (complete_nodePattern _ _ _ _ _ htail htailLaid hrest)).trans rfl

theorem begins_step : Begins [.mark .openArrow] Spelling.step := by
  intro items tokens h
  obtain ⟨r, d, first, tail, -, ⟨inner, -, rfl⟩, -, rfl⟩ := h
  exact ⟨_, _, rfl, List.mem_singleton_self _⟩

theorem absent_step : Absent [.mark .openArrow, .literal] step :=
  Absent.bind (absent_mark .openArrow).bind

theorem sound_patternElement : Sound patternElement Spelling.element := by
  intro text items rest hread
  obtain ⟨d, m₁, hd, hread⟩ := read_bind_eq_some.1 hread
  obtain ⟨steps, m₂, hsteps, hread⟩ := read_bind_eq_some.1 hread
  obtain ⟨rfl, rfl⟩ := read_pure_eq_some hread
  obtain ⟨first, hfirst, hfirstLaid⟩ := sound_nodePattern _ _ _ hd
  obtain ⟨tail, htail, htailLaid⟩ := sound_step.many _ _ _ hsteps
  exact ⟨first ++ tail, ⟨d, steps, first, tail, rfl, hfirst, htail, rfl⟩,
    hfirstLaid.append htailLaid⟩

theorem complete_patternElement : Complete afterElement patternElement Spelling.element := by
  intro items tokens text rest h hlaid hrest
  obtain ⟨d, steps, first, tail, rfl, hfirst, htail, rfl⟩ := h
  have hsteps : Complete afterElement (many step) (Spelling.Many Spelling.step) :=
    (complete_step _).many begins_step absent_step (by decide)
  obtain ⟨mid, hfirstLaid, htailLaid⟩ := hlaid.split
  refine (read_bind_of (complete_nodePattern _ _ _ _ _ hfirst hfirstLaid
    (begins_step.many_ahead htail htailLaid hrest))).trans ?_
  exact (read_bind_of (hsteps _ _ _ _ htail htailLaid hrest)).trans rfl

theorem begins_element : Begins [.mark .openParen] Spelling.element := by
  intro items tokens h
  obtain ⟨d, steps, first, tail, -, ⟨inner, -, rfl⟩, -, rfl⟩ := h
  exact ⟨_, _, rfl, List.mem_singleton_self _⟩

theorem sound_pattern : Sound pattern Spelling.pattern :=
  sound_patternElement.separated (sound_mark .comma)

theorem complete_pattern : Complete afterPattern pattern Spelling.pattern :=
  complete_patternElement.separated begins_element (complete_mark _ .comma) (absent_mark .comma)
    (by decide)

theorem begins_pattern : Begins [.mark .openParen] Spelling.pattern := begins_element.commaList

/-! ## §5. Conditions and variables. -/

theorem sound_whereClause : Sound whereClause Spelling.condition := by
  intro text c rest hread
  obtain ⟨_, m₁, hword, hread⟩ := read_bind_eq_some.1 hread
  obtain ⟨var, m₂, hvar, hread⟩ := read_bind_eq_some.1 hread
  obtain ⟨_, m₃, hdot, hread⟩ := read_bind_eq_some.1 hread
  obtain ⟨key, m₄, hkey, hread⟩ := read_bind_eq_some.1 hread
  obtain ⟨_, m₅, hequals, hread⟩ := read_bind_eq_some.1 hread
  obtain ⟨value, m₆, hvalue, hread⟩ := read_bind_eq_some.1 hread
  obtain ⟨rfl, rfl⟩ := read_pure_eq_some hread
  obtain ⟨_, rfl, hwordLaid⟩ := sound_keyword .whereKeyword .condition _ _ _ hword
  obtain ⟨_, rfl, hvarLaid⟩ := sound_name .variable _ _ _ hvar
  obtain ⟨_, rfl, hdotLaid⟩ := sound_mark .dot _ _ _ hdot
  obtain ⟨_, rfl, hkeyLaid⟩ := sound_name .propertyKey _ _ _ hkey
  obtain ⟨_, rfl, hequalsLaid⟩ := sound_mark .equals _ _ _ hequals
  obtain ⟨_, rfl, hvalueLaid⟩ := sound_literal _ _ _ hvalue
  exact ⟨_, rfl, hwordLaid.append (hvarLaid.append (hdotLaid.append
    (hkeyLaid.append (hequalsLaid.append hvalueLaid))))⟩

theorem complete_whereClause : Complete afterStatement whereClause Spelling.condition := by
  intro h tokens text rest heq hlaid hrest
  obtain ⟨var, key, value⟩ := h
  subst heq
  obtain ⟨m₁, hword, h₁⟩ := hlaid.uncons
  obtain ⟨m₂, hvar, h₂⟩ := h₁.uncons
  obtain ⟨m₃, hdot, h₃⟩ := h₂.uncons
  obtain ⟨m₄, hkey, h₄⟩ := h₃.uncons
  obtain ⟨m₅, hequals, h₅⟩ := h₄.uncons
  have hvalue := complete_literal (by decide) value _ m₅ rest rfl h₅ hrest
  refine (read_bind_of (complete_keyword _ .whereKeyword .condition () _ _ _ rfl hword
    (h₁.ahead hrest))).trans ?_
  refine (read_bind_of (complete_name _ .variable var _ _ _ rfl hvar (h₂.ahead hrest))).trans ?_
  refine (read_bind_of (complete_mark _ .dot () _ _ _ rfl hdot (h₃.ahead hrest))).trans ?_
  refine (read_bind_of (complete_name _ .propertyKey key _ _ _ rfl hkey (h₄.ahead hrest))).trans ?_
  refine (read_bind_of (complete_mark _ .equals () _ _ _ rfl hequals (h₅.ahead hrest))).trans ?_
  exact (read_bind_of hvalue).trans rfl

theorem absent_whereClause : Absent [.keyword .condition, .name, .literal] whereClause :=
  (absent_keyword .whereKeyword .condition).bind

theorem begins_condition : Begins [.keyword .condition] Spelling.condition := by
  intro c tokens heq
  subst heq
  exact ⟨_, _, rfl, List.mem_singleton_self _⟩

theorem sound_variableList : Sound variableList (Spelling.commaList Spelling.name) :=
  (sound_name .variable).separated (sound_mark .comma)

theorem complete_variableList :
    Complete afterStatement variableList (Spelling.commaList Spelling.name) :=
  (complete_name _ .variable).separated begins_name (complete_mark _ .comma) (absent_mark .comma)
    (by decide)

/-! ## §6. Statements. -/

theorem sound_createStatement : Sound createStatement Spelling.statement := by
  intro text s rest hread
  obtain ⟨_, m₁, hword, hread⟩ := read_bind_eq_some.1 hread
  obtain ⟨p, m₂, hp, hread⟩ := read_bind_eq_some.1 hread
  obtain ⟨rfl, rfl⟩ := read_pure_eq_some hread
  obtain ⟨_, rfl, hwordLaid⟩ := sound_keyword .createKeyword .create _ _ _ hword
  obtain ⟨tokens, hphrase, hlaid⟩ := sound_pattern _ _ _ hp
  exact ⟨_, ⟨tokens, hphrase, rfl⟩, hwordLaid.append hlaid⟩

theorem sound_matchStatement : Sound matchStatement Spelling.statement := by
  intro text s rest hread
  obtain ⟨_, m₁, hword, hread⟩ := read_bind_eq_some.1 hread
  obtain ⟨p, m₂, hp, hread⟩ := read_bind_eq_some.1 hread
  obtain ⟨c, m₃, hc, hread⟩ := read_bind_eq_some.1 hread
  obtain ⟨rfl, rfl⟩ := read_pure_eq_some hread
  obtain ⟨_, rfl, hwordLaid⟩ := sound_keyword .matchKeyword .search _ _ _ hword
  obtain ⟨first, hfirst, hfirstLaid⟩ := sound_pattern _ _ _ hp
  obtain ⟨tail, htail, htailLaid⟩ := sound_whereClause.optional _ _ _ hc
  exact ⟨_, ⟨first, tail, hfirst, htail, rfl⟩, hwordLaid.append (hfirstLaid.append htailLaid)⟩

theorem sound_returnStatement : Sound returnStatement Spelling.statement := by
  intro text s rest hread
  obtain ⟨_, m₁, hword, hread⟩ := read_bind_eq_some.1 hread
  obtain ⟨distinct, m₂, hdistinct, hread⟩ := read_bind_eq_some.1 hread
  obtain ⟨vars, m₃, hvars, hread⟩ := read_bind_eq_some.1 hread
  obtain ⟨rfl, rfl⟩ := read_pure_eq_some hread
  obtain ⟨_, rfl, hwordLaid⟩ := sound_keyword .returnKeyword .project _ _ _ hword
  obtain ⟨tokens, hphrase, hlaid⟩ := sound_variableList _ _ _ hvars
  rw [read_optional] at hdistinct
  split at hdistinct
  next u left hsome =>
    obtain ⟨rfl, rfl⟩ := Prod.mk.inj (Option.some.inj hdistinct)
    obtain ⟨_, rfl, hdistinctLaid⟩ := sound_keyword .distinct .distinct _ _ _ hsome
    exact ⟨_, ⟨_, ⟨tokens, hphrase, rfl⟩, rfl⟩, hwordLaid.append (hdistinctLaid.append hlaid)⟩
  next hnone =>
    obtain ⟨rfl, rfl⟩ := Prod.mk.inj (Option.some.inj hdistinct)
    refine ⟨_, ⟨⟨tokens, hphrase, rfl⟩, ?_⟩, hwordLaid.append hlaid⟩
    -- had the first variable spelled the keyword, it would have been read as such
    intro first hfirst
    obtain ⟨a, others, head, tail, rfl, rfl, -, rfl⟩ := hphrase
    obtain rfl := Option.some.inj hfirst
    exact (read_keyword_name_eq_none_iff .distinct .distinct hlaid).1 hnone

theorem sound_deleteStatement : Sound deleteStatement Spelling.statement := by
  intro text s rest hread
  obtain ⟨_, m₁, hword, hread⟩ := read_bind_eq_some.1 hread
  obtain ⟨vars, m₂, hvars, hread⟩ := read_bind_eq_some.1 hread
  obtain ⟨rfl, rfl⟩ := read_pure_eq_some hread
  obtain ⟨_, rfl, hwordLaid⟩ := sound_keyword .deleteKeyword .delete _ _ _ hword
  obtain ⟨tokens, hphrase, hlaid⟩ := sound_variableList _ _ _ hvars
  exact ⟨_, ⟨tokens, hphrase, rfl⟩, hwordLaid.append hlaid⟩

theorem sound_statement : Sound statement Spelling.statement :=
  sound_createStatement.choice (sound_matchStatement.choice
    (sound_returnStatement.choice sound_deleteStatement))

theorem absent_createStatement : Absent [.keyword .create, .name, .literal] createStatement :=
  (absent_keyword .createKeyword .create).bind

theorem absent_matchStatement : Absent [.keyword .search, .name, .literal] matchStatement :=
  (absent_keyword .matchKeyword .search).bind

theorem absent_returnStatement : Absent [.keyword .project, .name, .literal] returnStatement :=
  (absent_keyword .returnKeyword .project).bind

theorem absent_deleteStatement : Absent [.keyword .delete, .name, .literal] deleteStatement :=
  (absent_keyword .deleteKeyword .delete).bind

/-- The kinds a statement begins with. -/
def statementStarts : List Kind :=
  [.keyword .create, .keyword .search, .keyword .project, .keyword .delete]

theorem absent_statement : Absent (.name :: .literal :: statementStarts) statement :=
  (absent_createStatement.mono (by decide)).choice
    ((absent_matchStatement.mono (by decide)).choice
      ((absent_returnStatement.mono (by decide)).choice
        (absent_deleteStatement.mono (by decide))))

theorem read_createStatement {p : Pattern SpelledProperties} {tokens : List Token}
    {text rest : List Char} (hphrase : Spelling.statement (.create p) tokens)
    (hlaid : Laid tokens text rest) (hrest : Ahead afterStatement rest) :
    createStatement.read text = some (.create p, rest) := by
  obtain ⟨tail, hp, rfl⟩ := hphrase
  obtain ⟨mid, hword, htail⟩ := hlaid.uncons
  refine (read_bind_of (complete_keyword _ .createKeyword .create () _ _ _ rfl hword
    (begins_pattern.ahead hp htail hrest))).trans ?_
  exact (read_bind_of (complete_pattern _ _ _ _ hp htail (hrest.mono (by decide)))).trans rfl

theorem read_matchStatement {p : Pattern SpelledProperties} {c : Option (Condition SpelledLiteral)}
    {tokens : List Token} {text rest : List Char}
    (hphrase : Spelling.statement (.search p c) tokens)
    (hlaid : Laid tokens text rest) (hrest : Ahead afterStatement rest) :
    matchStatement.read text = some (.search p c, rest) := by
  obtain ⟨first, tail, hp, hc, rfl⟩ := hphrase
  obtain ⟨m₁, hword, hlaid⟩ := hlaid.uncons
  obtain ⟨m₂, hfirst, htail⟩ := hlaid.split
  have hahead : Ahead afterPattern m₂ := begins_condition.optional_ahead hc htail hrest
  have hwhere : Complete afterStatement (optional whereClause)
      (Spelling.optional Spelling.condition) :=
    complete_whereClause.optional absent_whereClause (by decide)
  refine (read_bind_of (complete_keyword _ .matchKeyword .search () _ _ _ rfl hword
    (begins_pattern.ahead hp hfirst hahead))).trans ?_
  refine (read_bind_of (complete_pattern _ _ _ _ hp hfirst hahead)).trans ?_
  exact (read_bind_of (hwhere _ _ _ _ hc htail hrest)).trans rfl

theorem read_returnStatement {vars : List String} {distinct : Bool} {tokens : List Token}
    {text rest : List Char} (hphrase : Spelling.statement (.project vars distinct) tokens)
    (hlaid : Laid tokens text rest) (hrest : Ahead afterStatement rest) :
    returnStatement.read text = some (.project vars distinct, rest) := by
  have hbegins : Begins [.name] (Spelling.commaList Spelling.name) := begins_name.commaList
  cases distinct with
  | true =>
    obtain ⟨_, ⟨tail, hvars, rfl⟩, rfl⟩ := hphrase
    obtain ⟨m₁, hword, hlaid⟩ := hlaid.uncons
    obtain ⟨m₂, hdistinct, htail⟩ := hlaid.uncons
    have hread : (optional (keyword .distinct "DISTINCT")).read m₁ = some (some (), m₂) := by
      rw [read_optional]
      have hkeyword := complete_keyword _ .distinct .distinct () _ _ _ rfl hdistinct
        (hbegins.ahead hvars htail hrest)
      simp only [show "DISTINCT" = Keyword.distinct.word from rfl, hkeyword]
    refine (read_bind_of (complete_keyword _ .returnKeyword .project () _ _ _ rfl hword
      (hlaid.ahead hrest))).trans ?_
    refine (read_bind_of hread).trans ?_
    exact (read_bind_of (complete_variableList _ _ _ _ hvars htail hrest)).trans rfl
  | false =>
    obtain ⟨⟨tail, hvars, rfl⟩, hfirst⟩ := hphrase
    obtain ⟨m₁, hword, htail⟩ := hlaid.uncons
    have hread : (optional (keyword .distinct "DISTINCT")).read m₁ = some (none, m₁) := by
      -- the first variable does not spell the keyword
      obtain ⟨a, others, head, more, rfl, rfl, -, rfl⟩ := hvars
      have hnone := (read_keyword_name_eq_none_iff .distinct .distinct htail).2 (hfirst a rfl)
      rw [read_optional]
      simp only [show "DISTINCT" = Keyword.distinct.word from rfl, hnone]
    refine (read_bind_of (complete_keyword _ .returnKeyword .project () _ _ _ rfl hword
      (hbegins.ahead hvars htail hrest))).trans ?_
    refine (read_bind_of hread).trans ?_
    exact (read_bind_of (complete_variableList _ _ _ _ hvars htail hrest)).trans rfl

theorem read_deleteStatement {vars : List String} {tokens : List Token}
    {text rest : List Char} (hphrase : Spelling.statement (.delete vars) tokens)
    (hlaid : Laid tokens text rest) (hrest : Ahead afterStatement rest) :
    deleteStatement.read text = some (.delete vars, rest) := by
  obtain ⟨tail, hvars, rfl⟩ := hphrase
  obtain ⟨mid, hword, htail⟩ := hlaid.uncons
  refine (read_bind_of (complete_keyword _ .deleteKeyword .delete () _ _ _ rfl hword
    (begins_name.commaList.ahead hvars htail hrest))).trans ?_
  exact (read_bind_of (complete_variableList _ _ _ _ hvars htail hrest)).trans rfl

/-- The keyword in front of a statement. -/
def leadingKeyword : SpelledStatement → Keyword
  | .create _ => .create
  | .search _ _ => .search
  | .project _ _ => .project
  | .delete _ => .delete

theorem exists_tail_of_statement {s : SpelledStatement} {tokens : List Token}
    (h : Spelling.statement s tokens) : ∃ tail, tokens = .keyword (leadingKeyword s) :: tail := by
  cases s with
  | create p =>
    obtain ⟨tail, -, rfl⟩ := h
    exact ⟨tail, rfl⟩
  | search p c =>
    obtain ⟨first, tail, -, -, rfl⟩ := h
    exact ⟨first ++ tail, rfl⟩
  | project vars distinct =>
    cases distinct with
    | true =>
      obtain ⟨tail, -, rfl⟩ := h
      exact ⟨tail, rfl⟩
    | false =>
      obtain ⟨⟨tail, -, rfl⟩, -⟩ := h
      exact ⟨tail, rfl⟩
  | delete vars =>
    obtain ⟨tail, -, rfl⟩ := h
    exact ⟨tail, rfl⟩

theorem begins_statement : Begins statementStarts Spelling.statement := by
  intro s tokens h
  obtain ⟨tail, rfl⟩ := exists_tail_of_statement h
  have hall : ∀ k : Keyword, k ≠ .condition ∧ k ≠ .distinct → .keyword k ∈ statementStarts := by
    intro k
    cases k <;> decide
  refine ⟨_, tail, rfl, hall _ ?_⟩
  cases s <;> exact ⟨nofun, nofun⟩

theorem complete_statement : Complete afterStatement statement Spelling.statement := by
  intro s tokens text rest hphrase hlaid hrest
  obtain ⟨tail, rfl⟩ := exists_tail_of_statement hphrase
  unfold statement
  cases s with
  | create p =>
    rw [read_choice, read_createStatement hphrase hlaid hrest]
    rfl
  | search p c =>
    have hahead : Ahead [.keyword .search] text := hlaid.ahead hrest
    rw [read_choice, absent_createStatement _ text hahead (by decide), read_choice,
      read_matchStatement hphrase hlaid hrest]
    rfl
  | project vars distinct =>
    have hahead : Ahead [.keyword .project] text := hlaid.ahead hrest
    rw [read_choice, absent_createStatement _ text hahead (by decide), read_choice,
      absent_matchStatement _ text hahead (by decide), read_choice,
      read_returnStatement hphrase hlaid hrest]
    rfl
  | delete vars =>
    have hahead : Ahead [.keyword .delete] text := hlaid.ahead hrest
    rw [read_choice, absent_createStatement _ text hahead (by decide), read_choice,
      absent_matchStatement _ text hahead (by decide), read_choice,
      absent_returnStatement _ text hahead (by decide), read_deleteStatement hphrase hlaid hrest]
    rfl

end PropertyGraph.Query
