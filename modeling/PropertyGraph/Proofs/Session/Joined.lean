/-
  PropertyGraph.Proofs.Session.Joined
  ───────────────────────────────────
  **TWO QUERIES IN ONE TEXT.**

  One query may follow another in the same text.  If the first ends in a
  semicolon, nothing needs to stand between them; otherwise a blank does, or a
  semicolon (`Separates`).  Nothing at the end of the first query, be it a
  list, a condition left out or a number, goes on with what comes next.

      parse_join  — the text is read as the statements of both
      run_join    — and it does what the two do one after the other
-/
import PropertyGraph.Proofs.Session.Unfailing

namespace PropertyGraph

open PropertyGraph.Text PropertyGraph.Query
open Reading (isBlank)

namespace Query

/-! ## §1. The last token of a phrase. -/

variable {α : Type}

/-- A phrase ends with a token of these kinds. -/
def Ends (stops : List Kind) (phrase : Spelling α) : Prop :=
  ∀ a tokens, phrase a tokens → ∃ front token, tokens = front ++ [token] ∧ token.kind ∈ stops

theorem Ends.mono {stops more : List Kind} {phrase : Spelling α} (h : Ends stops phrase)
    (hmore : ∀ k ∈ stops, k ∈ more) : Ends more phrase := by
  intro a tokens hphrase
  obtain ⟨front, token, heq, htoken⟩ := h a tokens hphrase
  exact ⟨front, token, heq, hmore _ htoken⟩

/-- Whatever stands before the phrase. -/
theorem Ends.after {stops : List Kind} {phrase : Spelling α} (h : Ends stops phrase)
    (before : List Token) {a : α} {tokens : List Token} (hphrase : phrase a tokens) :
    ∃ front token, before ++ tokens = front ++ [token] ∧ token.kind ∈ stops := by
  obtain ⟨front, token, rfl, htoken⟩ := h a tokens hphrase
  exact ⟨before ++ front, token, (List.append_assoc _ _ _).symm, htoken⟩

theorem Ends.behind {stops : List Kind} {phrase : Spelling α} (h : Ends stops phrase)
    (token : Token) : Ends stops (Spelling.behind token phrase) := by
  rintro a _ ⟨rest, hphrase, rfl⟩
  exact h.after [token] hphrase

/-- Something, and then any number of phrases that end like it. -/
theorem Ends.many {stops : List Kind} {phrase : Spelling α} (h : Ends stops phrase)
    {items : List α} {tokens : List Token} (hitems : Spelling.Many phrase items tokens) :
    ∀ {first : List Token}, (∃ front token, first = front ++ [token] ∧ token.kind ∈ stops) →
      ∃ front token, first ++ tokens = front ++ [token] ∧ token.kind ∈ stops := by
  induction hitems with
  | nil =>
    rintro first ⟨front, token, rfl, htoken⟩
    exact ⟨front, token, List.append_nil _, htoken⟩
  | cons hphrase _ ih =>
    intro first _
    rw [← List.append_assoc]
    exact ih (h.after first hphrase)

theorem Ends.commaList {stops : List Kind} {phrase : Spelling α} (h : Ends stops phrase) :
    Ends stops (Spelling.commaList phrase) := by
  rintro items _ ⟨a, others, first, rest, rfl, hphrase, hothers, rfl⟩
  exact (h.behind (.mark .comma)).many hothers (h a first hphrase)

theorem ends_name : Ends [.name] Spelling.name := by
  rintro s _ rfl
  exact ⟨[], _, rfl, List.mem_singleton_self _⟩

theorem ends_node : Ends [.mark .closeParen] Spelling.node := by
  rintro d _ ⟨inner, -, rfl⟩
  exact ⟨.mark .openParen :: inner, _, rfl, List.mem_singleton_self _⟩

theorem ends_step : Ends [.mark .closeParen] Spelling.step := by
  rintro items _ ⟨r, d, first, rest, -, -, hnode, rfl⟩
  exact ends_node.after first hnode

theorem ends_pattern : Ends [.mark .closeParen] Spelling.pattern := by
  refine Ends.commaList ?_
  rintro element _ ⟨d, steps, first, rest, -, hnode, hsteps, rfl⟩
  exact ends_step.many hsteps (ends_node d first hnode)

theorem ends_condition : Ends [.literal] Spelling.condition := by
  rintro c _ rfl
  exact ⟨[_, _, _, _, _], _, rfl, List.mem_singleton_self _⟩

/-- The kinds a statement ends with. -/
def statementEnds : List Kind := [.mark .closeParen, .name, .literal]

theorem ends_statement : Ends statementEnds Spelling.statement := by
  have hpattern : Ends statementEnds Spelling.pattern := ends_pattern.mono (by decide)
  have hvars : Ends statementEnds (Spelling.commaList Spelling.name) :=
    ends_name.commaList.mono (by decide)
  intro s tokens h
  cases s with
  | create p => exact hpattern.behind _ p tokens h
  | search p condition =>
    obtain ⟨first, rest, hp, hcondition, rfl⟩ := h
    cases condition with
    | none =>
      obtain rfl : rest = [] := hcondition
      rw [List.append_nil]
      exact hpattern.behind _ p _ ⟨first, hp, rfl⟩
    | some c =>
      exact (ends_condition.mono (by decide)).after (.keyword .search :: first) hcondition
  | project vars distinct =>
    cases distinct with
    | false => exact hvars.behind _ vars tokens h.1
    | true => exact (hvars.behind _).behind _ vars tokens h
  | delete vars => exact hvars.behind _ vars tokens h

/-! ## §2. The last character of a text. -/

/-- The last character that is no blank. -/
def lastSolid? (text : List Char) : Option Char := (text.reverse.dropWhile isBlank).head?

theorem lastSolid?_eq {front gap : List Char} {c : Char} (hc : isBlank c = false)
    (hgap : ∀ d ∈ gap, isBlank d = true) : lastSolid? (front ++ [c] ++ gap) = some c := by
  have hreverse : (front ++ [c] ++ gap).reverse = gap.reverse ++ c :: front.reverse := by
    rw [List.reverse_append, List.reverse_append]
    rfl
  unfold lastSolid?
  rw [hreverse, dropWhile_run (fun d hd => hgap d (List.mem_reverse.1 hd)) (stops_cons hc)]
  rfl

/-- Characters in the middle of a query: neither blanks nor semicolons. -/
def isInner (c : Char) : Bool := !isBlank c && c != ';'

theorem isInner_of_isIdentifierChar {c : Char} (h : isIdentifierChar c = true) :
    isInner c = true := by
  cases hinner : isInner c with
  | true => rfl
  | false =>
    simp only [isInner, isBlank, Bool.and_eq_false_iff, Bool.not_eq_false', Bool.or_eq_true,
      beq_iff_eq, bne_eq_false_iff_eq] at hinner
    rcases hinner with (((rfl | rfl) | rfl) | rfl) | rfl <;> cases h

theorem isInner_of_isDigit {c : Char} (h : c.isDigit = true) : isInner c = true := by
  refine isInner_of_isIdentifierChar ?_
  simp only [isIdentifierChar, Char.isAlphanum, h, Bool.or_true, Bool.true_or]

theorem isInner_of_mem_numeral {n : Numeral} (h : LegalNumeral n) :
    ∀ c ∈ n.text, isInner c = true := by
  have hsign : ∀ sign : SignMark, ∀ c ∈ sign.text, isInner c = true := by
    intro sign
    refine List.all_eq_true.1 ?_
    cases sign <;> rfl
  intro c hc
  simp only [Numeral.text, List.mem_append] at hc
  rcases hc with ((hc | hc) | hc) | hc
  · exact hsign _ c hc
  · exact isInner_of_isDigit (h.whole c hc)
  · cases hfraction : n.fraction with
    | none =>
      rw [hfraction] at hc
      cases hc
    | some digits =>
      rw [hfraction] at hc
      rcases List.mem_cons.1 hc with rfl | hc
      · decide
      · exact isInner_of_isDigit (h.fraction digits hfraction c hc)
  · cases hpower : n.power with
    | none =>
      rw [hpower] at hc
      cases hc
    | some p =>
      obtain ⟨hmark, -, hdigits⟩ := h.power p hpower
      rw [hpower] at hc
      rcases List.mem_cons.1 hc with rfl | hc
      · rcases hmark with hmark | hmark <;> rw [hmark] <;> decide
      · rcases List.mem_append.1 hc with hc | hc
        · exact hsign _ c hc
        · exact isInner_of_isDigit (hdigits c hc)

/-- A token ends in a semicolon only if it is one, and never in a blank. -/
theorem Token.SpelledBy.last {token : Token} {chars : List Char} (h : token.SpelledBy chars) :
    ∃ front c, chars = front ++ [c] ∧ isBlank c = false
      ∧ (c = ';' ↔ token.kind = .mark .semicolon) := by
  -- every token but a mark ends in an inner character
  have hinner : (∀ c ∈ chars, isInner c = true) → token.kind ≠ .mark .semicolon →
      ∃ front c, chars = front ++ [c] ∧ isBlank c = false
        ∧ (c = ';' ↔ token.kind = .mark .semicolon) := by
    intro hall hkind
    obtain ⟨_, _, hchars, -⟩ := h.begins
    have hne : chars ≠ [] := hchars ▸ List.cons_ne_nil _ _
    have hlast := hall _ (List.getLast_mem hne)
    simp only [isInner, Bool.and_eq_true, Bool.not_eq_true', bne_iff_ne] at hlast
    exact ⟨chars.dropLast, chars.getLast hne, (List.dropLast_concat_getLast hne).symm, hlast.1,
      fun heq => absurd heq hlast.2, fun heq => absurd heq hkind⟩
  cases token with
  | keyword k =>
    exact hinner (fun c hc => isInner_of_isIdentifierChar (h.letters trivial c hc)) nofun
  | name s =>
    exact hinner (fun c hc => isInner_of_isIdentifierChar (h.letters trivial c hc)) nofun
  | mark m =>
    obtain rfl : chars = m.text.toList := h
    have hall : ∀ m : Mark, m.text.toList = m.text.toList.dropLast ++ [m.text.toList.getLastD ' ']
        ∧ isBlank (m.text.toList.getLastD ' ') = false
        ∧ (m.text.toList.getLastD ' ' = ';' ↔ (Token.mark m).kind = .mark .semicolon) := by
      intro m
      cases m <;> decide
    exact ⟨_, _, hall m⟩
  | literal l =>
    cases l with
    | string pieces =>
      obtain ⟨-, rfl⟩ := h
      exact ⟨'"' :: pieces.flatMap StringPiece.text, '"', rfl, rfl, nofun, nofun⟩
    | number n =>
      obtain ⟨hlegal, rfl⟩ := h
      exact hinner (isInner_of_mem_numeral hlegal) nofun

/-! ## §3. Layouts in front of more text. -/

theorem not_isIdentifierChar_of_isBlank {c : Char} (h : isBlank c = true) :
    isIdentifierChar c = false := by
  simp only [isBlank, Bool.or_eq_true, beq_iff_eq] at h
  rcases h with ((rfl | rfl) | rfl) | rfl <;> decide

theorem Laid.suffix {tokens : List Token} {text rest : List Char} (h : Laid tokens text rest) :
    ∃ before, text = before ++ rest := by
  induction h with
  | nil => exact ⟨[], rfl⟩
  | cons _ _ _ _ ih =>
    obtain ⟨before, rfl⟩ := ih
    exact ⟨_, by rw [← List.append_assoc, ← List.append_assoc]⟩

/-- More text behind what a layout leaves over. -/
theorem Laid.followed {tokens : List Token} {text rest : List Char} (h : Laid tokens text rest)
    (hne : rest ≠ []) (more : List Char) : Laid tokens (text ++ more) (rest ++ more) := by
  induction h with
  | nil => exact .nil
  | @cons token tokens chars gap text rest hspelled hword hgap hlaid ih =>
    rw [List.append_assoc, List.append_assoc]
    refine .cons hspelled (fun h => ?_) hgap (ih hne)
    -- the character behind the token is the one that was there before
    obtain ⟨before, rfl⟩ := hlaid.suffix
    rw [← List.append_assoc]
    cases hbetween : gap ++ (before ++ rest) with
    | nil =>
      have hnil := (List.append_eq_nil_iff.1 (List.append_eq_nil_iff.1 hbetween).2).2
      exact absurd hnil hne
    | cons c tail =>
      rw [hbetween] at hword
      exact stops_cons (hword h c tail rfl)

/-- **Blanks and more text behind a whole text**: the blanks go to its last
token, which they or the text must not continue. -/
theorem Laid.followed_gap {front : List Token} {token : Token} {text gap more : List Char}
    (h : Laid (front ++ [token]) text []) (hgap : ∀ c ∈ gap, isBlank c = true)
    (hmore : token.IsWord → Stops isIdentifierChar (gap ++ more)) :
    Laid (front ++ [token]) (text ++ (gap ++ more)) more := by
  obtain ⟨mid, hfront, hlast⟩ := h.split
  obtain ⟨chars, blanks, rfl, hspelled, -, hblanks⟩ := laid_singleton_iff.1 hlast
  obtain ⟨c, tail, hchars, -⟩ := hspelled.begins
  refine (hfront.followed (hchars ▸ List.cons_ne_nil _ _) (gap ++ more)).append ?_
  refine laid_singleton_iff.2 ⟨chars, blanks ++ gap, ?_, hspelled, fun hword => ?_, ?_⟩
  · simp
  · rw [List.append_assoc]
    exact stops_gap hblanks (fun _ => not_isIdentifierChar_of_isBlank) (hmore hword)
  · intro d hd
    rcases List.mem_append.1 hd with hd | hd
    · exact hblanks d hd
    · exact hgap d hd

/-- The text of some tokens ends as the last of them does. -/
theorem Laid.lastSolid? {front : List Token} {token : Token} {text : List Char}
    (h : Laid (front ++ [token]) text []) (gap : List Char) :
    Query.lastSolid? (gap ++ text) = some ';' ↔ token.kind = .mark .semicolon := by
  obtain ⟨mid, hfront, hlast⟩ := h.split
  obtain ⟨before, rfl⟩ := hfront.suffix
  obtain ⟨chars, blanks, rfl, hspelled, -, hblanks⟩ := laid_singleton_iff.1 hlast
  obtain ⟨start, c, rfl, hc, hkind⟩ := hspelled.last
  have htext : gap ++ (before ++ (start ++ [c] ++ (blanks ++ [])))
      = gap ++ before ++ start ++ [c] ++ blanks := by simp
  rw [htext, lastSolid?_eq hc hblanks, ← hkind]
  exact ⟨Option.some.inj, congrArg some⟩

/-! ## §4. Two texts. -/

/-- One statement or more, without a semicolon at the end. -/
def Spelling.row : Spelling (List SpelledStatement) :=
  fun statements tokens => ∃ s others first rest, statements = s :: others
    ∧ Spelling.statement s first ∧ Spelling.Many Spelling.further others rest
    ∧ tokens = first ++ rest

theorem query_iff_row {statements : List SpelledStatement} {tokens : List Token} :
    Spelling.query statements tokens
      ↔ Spelling.row statements tokens
        ∨ ∃ front, Spelling.row statements front ∧ tokens = front ++ [.mark .semicolon] := by
  constructor
  · rintro ⟨s, others, first, rest, rfl, hs, hothers, rfl | rfl⟩
    · exact .inl ⟨s, others, first, rest, rfl, hs, hothers, rfl⟩
    · exact .inr ⟨first ++ rest, ⟨s, others, first, rest, rfl, hs, hothers, rfl⟩,
        (List.append_assoc _ _ _).symm⟩
  · rintro (⟨s, others, first, rest, rfl, hs, hothers, rfl⟩ |
      ⟨_, ⟨s, others, first, rest, rfl, hs, hothers, rfl⟩, rfl⟩)
    · exact ⟨s, others, first, rest, rfl, hs, hothers, .inl rfl⟩
    · exact ⟨s, others, first, rest, rfl, hs, hothers, .inr (List.append_assoc _ _ _)⟩

theorem ends_row : Ends statementEnds Spelling.row := by
  have hfurther : Ends statementEnds Spelling.further := by
    rintro s tokens (h | h)
    · exact ends_statement s tokens h
    · exact ends_statement.behind _ s tokens h
  rintro statements _ ⟨s, others, first, rest, rfl, hs, hothers, rfl⟩
  exact hfurther.many hothers (ends_statement s first hs)

theorem many_append {phrase : Spelling α} {items others : List α} {tokens more : List Token}
    (h : Spelling.Many phrase items tokens) (hothers : Spelling.Many phrase others more) :
    Spelling.Many phrase (items ++ others) (tokens ++ more) := by
  induction h with
  | nil => exact hothers
  | cons hphrase _ ih =>
    rw [List.append_assoc]
    exact .cons hphrase ih

/-- A query goes on with the statements of another, behind a semicolon or not. -/
theorem query_append {left right : List SpelledStatement} {tokens more : List Token}
    (hleft : Spelling.row left tokens) (hright : Spelling.query right more) :
    Spelling.query (left ++ right) (tokens ++ more)
      ∧ Spelling.query (left ++ right) (tokens ++ .mark .semicolon :: more) := by
  obtain ⟨s, others, first, rest, rfl, hs, hothers, rfl⟩ := hleft
  obtain ⟨next, following, start, tail, rfl, hnext, hfollowing, hmore⟩ := hright
  have hjoined : ∀ tokens, Spelling.further next tokens →
      Spelling.Many Spelling.further (others ++ next :: following) (rest ++ (tokens ++ tail)) :=
    fun tokens hfurther => many_append hothers (.cons hfurther hfollowing)
  constructor
  · refine ⟨s, _, first, _, rfl, hs, hjoined start (.inl hnext), ?_⟩
    rcases hmore with rfl | rfl
    · exact .inl (List.append_assoc _ _ _)
    · exact .inr (by simp)
  · refine ⟨s, _, first, _, rfl, hs, hjoined _ (.inr ⟨start, hnext, rfl⟩), ?_⟩
    rcases hmore with rfl | rfl
    · exact .inl (by simp)
    · exact .inr (by simp)

/-- What may stand between a query and the next: blanks, and at least one of
them or a semicolon if the first query does not end in a semicolon. -/
inductive Separates (first : List Char) : List Char → Prop where
  | nothing {gap : List Char} : lastSolid? first = some ';' → (∀ c ∈ gap, isBlank c = true) →
    Separates first gap
  | blank {gap : List Char} : lastSolid? first ≠ some ';' → gap ≠ [] →
    (∀ c ∈ gap, isBlank c = true) → Separates first gap
  | semicolon {gap rest : List Char} : lastSolid? first ≠ some ';' →
    (∀ c ∈ gap, isBlank c = true) → (∀ c ∈ rest, isBlank c = true) →
    Separates first (gap ++ ';' :: rest)

/-- **The text of both spells the statements of both.** -/
theorem SpelledAs.join {first between second : List Char} {left right : List SpelledStatement}
    (hfirst : SpelledAs first left) (hsecond : SpelledAs second right)
    (hbetween : Separates first between) :
    SpelledAs (first ++ (between ++ second)) (left ++ right) := by
  obtain ⟨gap, text, tokens, rfl, hgap, hlaid, hquery⟩ := hfirst
  obtain ⟨start, next, others, rfl, hstart, hothers, hnext⟩ := hsecond
  have hblanks : ∀ {gap : List Char}, (∀ c ∈ gap, isBlank c = true) →
      ∀ c ∈ gap ++ start, isBlank c = true := fun hgap c hc =>
    (List.mem_append.1 hc).elim (hgap c) (hstart c)
  rcases query_iff_row.1 hquery with hrow | ⟨front, hrow, rfl⟩
  · -- the first query ends with a statement, and so not in a semicolon
    obtain ⟨front, token, rfl, htoken⟩ := ends_row left tokens hrow
    have hkind : token.kind ≠ .mark .semicolon := by
      intro heq
      rw [heq] at htoken
      exact absurd htoken (by decide)
    cases hbetween with
    | nothing hlast => exact absurd ((hlaid.lastSolid? gap).1 hlast) hkind
    | @blank between _ hne hbetween =>
      refine ⟨gap, text ++ (between ++ start ++ next), front ++ [token] ++ others, by simp, hgap,
        (hlaid.followed_gap (hblanks hbetween) (fun _ => ?_)).append hothers,
        (query_append hrow hnext).1⟩
      cases between with
      | nil => exact absurd rfl hne
      | cons c tail =>
        exact stops_cons (not_isIdentifierChar_of_isBlank (hbetween c List.mem_cons_self))
    | @semicolon before after _ hbefore hafter =>
      refine ⟨gap, text ++ (before ++ ';' :: (after ++ start ++ next)),
        front ++ [token] ++ .mark .semicolon :: others, by simp, hgap,
        (hlaid.followed_gap hbefore (fun _ => ?_)).append
          (@Laid.cons (.mark .semicolon) _ [';'] _ _ _ rfl nofun (hblanks hafter) hothers),
        (query_append hrow hnext).2⟩
      exact stops_gap hbefore (fun _ => not_isIdentifierChar_of_isBlank) (stops_cons rfl)
  · have hlast := hlaid.lastSolid? gap
    cases hbetween with
    | blank hnot | semicolon hnot => exact absurd (hlast.2 rfl) hnot
    | @nothing between _ hbetween =>
      refine ⟨gap, text ++ (between ++ start ++ next), front ++ [.mark .semicolon] ++ others,
        by simp, hgap, (hlaid.followed_gap (hblanks hbetween) nofun).append hothers, ?_⟩
      rw [List.append_assoc]
      exact (query_append hrow hnext).2

/-- Statements that are spelled and have values are read. -/
theorem parse_of_spelledAs {text : String} {spelled : List SpelledStatement}
    {statements : List GraphStatement} (hspelled : SpelledAs text.toList spelled)
    (hdenotes : List.Forall₂ Statement.Denotes spelled statements) :
    parse text = .ok statements := by
  unfold parse
  rw [readStatements_eq_ok_iff.2 hspelled]
  dsimp only
  rw [evaluateStatements_eq_ok_iff.2 hdenotes]

/-- **Two queries in one text** are read as their statements in order. -/
theorem parse_join {first between second : String} {left right : List GraphStatement}
    (hfirst : parse first = .ok left) (hsecond : parse second = .ok right)
    (hbetween : Separates first.toList between.toList) :
    parse (first ++ between ++ second) = .ok (left ++ right) := by
  obtain ⟨firstSpelled, hfirst, hleft⟩ := exists_denotes_of_parse hfirst
  obtain ⟨secondSpelled, hsecond, hright⟩ := exists_denotes_of_parse hsecond
  have hjoined := (readStatements_eq_ok_iff.1 hfirst).join (readStatements_eq_ok_iff.1 hsecond)
    hbetween
  refine parse_of_spelledAs ?_ (List.rel_append hleft hright)
  rwa [String.toList_append, String.toList_append, List.append_assoc]

end Query

namespace Session

/-- **Two queries in one text do what they do one after the other.**  The text
is read as the statements of both.  In any session in which the first query
succeeds, the text gives the outcomes of the first and then those of the
second, or the error of the second, and leaves the session as the second query
leaves it after the first. -/
theorem run_join {first between second : String} {left right : List GraphStatement}
    (hfirst : parse first = .ok left) (hsecond : parse second = .ok right)
    (hbetween : Separates first.toList between.toList) :
    parse (first ++ between ++ second) = .ok (left ++ right)
      ∧ ∀ (session after : Session) (outcomes : List Outcome),
          session.run first = (after, .ok outcomes) →
          session.run (first ++ between ++ second)
            = ((after.run second).1, (after.run second).2.map (outcomes ++ ·)) := by
  have hjoined := parse_join hfirst hsecond hbetween
  refine ⟨hjoined, fun session after outcomes h => ?_⟩
  rw [run_eq_executeAll hfirst] at h
  rw [run_eq_executeAll hjoined, run_eq_executeAll hsecond]
  exact executeAll_append h

/-- A query that ends in a condition. -/
def seamText : String := "CREATE (a:A \x7bh: 7\x7d)-[:R]->(a) MATCH (x)-[r]->(y) WHERE x.h = 7"

/-- A query that ends in a semicolon. -/
def closedText : String := "DELETE r ; MATCH (n) RETURN n;\n"

theorem run_join_seamText :
    ∃ left right, parse seamText = .ok left ∧ parse closedText = .ok right
      ∧ Separates seamText.toList "\t".toList
      ∧ ∃ after outcomes, (start .inMemory .empty).run seamText = (after, .ok outcomes)
        ∧ (start .inMemory .empty).run (seamText ++ "\t" ++ closedText)
            = ((after.run closedText).1, (after.run closedText).2.map (outcomes ++ ·))
        ∧ outcomes.length = 2 ∧ (after.run closedText).1.store.relationshipCount = 0 := by
  obtain ⟨left, hleft⟩ : ∃ left, parse seamText = .ok left := ⟨_, rfl⟩
  obtain ⟨right, hright⟩ : ∃ right, parse closedText = .ok right := ⟨_, rfl⟩
  have hbetween : Separates seamText.toList "\t".toList :=
    .blank (by decide) (by decide) (List.all_eq_true.1 (by decide))
  have hlength : ((start .inMemory .empty).run seamText).2.toOption.map List.length = some 2 := by
    decide +kernel
  have hcount : (((start .inMemory .empty).run seamText).1.run closedText).1.store.relationshipCount
      = 0 := by decide +kernel
  refine ⟨left, right, hleft, hright, hbetween, ?_⟩
  cases hrun : (start .inMemory .empty).run seamText with
  | mk after result =>
    rw [hrun] at hlength hcount
    cases result with
    | error error => cases hlength
    | ok outcomes =>
      exact ⟨after, outcomes, rfl, (run_join hleft hright hbetween).2 _ _ _ hrun,
        Option.some.inj hlength, hcount⟩

end Session

end PropertyGraph
