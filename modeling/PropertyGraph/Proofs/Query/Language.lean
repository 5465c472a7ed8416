/-
  PropertyGraph.Proofs.Query.Language
  ───────────────────────────────────
  **THE LANGUAGE THAT IS READ IS THE LANGUAGE THAT IS SPELLED.**

  A whole text at last: statements one after the other, blanks before the
  first, and the end of the text after the last.

  Main result:
    * `parse_eq_ok_iff_spells` — a text is read as these statements exactly
      if it spells them.
-/
import PropertyGraph.Proofs.Query.Denotation
import PropertyGraph.Proofs.Query.Rules

namespace PropertyGraph.Query

open PropertyGraph.Text
open Reading

/-! ## §1. Statements in a row. -/

theorem sound_furtherStatement : Sound furtherStatement Spelling.further := by
  intro text s rest hread
  obtain ⟨semicolon, mid, hsemicolon, hread⟩ := read_bind_eq_some.1 hread
  obtain ⟨first, hfirst, hfirstLaid⟩ := (sound_mark .semicolon).optional _ _ _ hsemicolon
  obtain ⟨tokens, hphrase, hlaid⟩ := sound_statement _ _ _ hread
  cases semicolon with
  | none =>
    obtain rfl : first = [] := hfirst
    exact ⟨_, .inl hphrase, hfirstLaid.append hlaid⟩
  | some u =>
    obtain rfl : first = [.mark .semicolon] := hfirst
    exact ⟨_, .inr ⟨tokens, hphrase, rfl⟩, hfirstLaid.append hlaid⟩

/-- A semicolon that may be left out. -/
def maybeSemicolon : Spelling (Option Unit) :=
  Spelling.optional (single (fun _ => .mark .semicolon))

theorem complete_maybeSemicolon {follow : List Kind}
    (h : ∀ k ∈ follow, k ∉ [.mark .semicolon, .literal]) :
    Complete follow (optional (symbol ";")) maybeSemicolon :=
  (complete_mark follow .semicolon).optional (absent_mark .semicolon) h

theorem complete_furtherStatement : Complete afterStatement furtherStatement Spelling.further := by
  intro s tokens text rest hphrase hlaid hrest
  have hsemicolon : Complete statementStarts (optional (symbol ";")) maybeSemicolon :=
    complete_maybeSemicolon (by decide)
  rcases hphrase with hphrase | ⟨tail, hphrase, rfl⟩
  -- a keyword stands here, so that no semicolon is read
  · have hahead : Ahead statementStarts text := begins_statement.ahead hphrase hlaid hrest
    refine (read_bind_of (hsemicolon none [] text text rfl .nil hahead)).trans ?_
    exact complete_statement s tokens text rest hphrase hlaid hrest
  · obtain ⟨mid, hmark, htail⟩ := hlaid.uncons
    have hahead : Ahead statementStarts mid := begins_statement.ahead hphrase htail hrest
    refine (read_bind_of (hsemicolon (some ()) _ text mid rfl hmark hahead)).trans ?_
    exact complete_statement s tail mid rest hphrase htail hrest

theorem begins_further : Begins (.mark .semicolon :: statementStarts) Spelling.further := by
  intro s tokens h
  rcases h with h | ⟨tail, -, rfl⟩
  · obtain ⟨token, tail, rfl, htoken⟩ := begins_statement s tokens h
    exact ⟨token, tail, rfl, List.mem_cons_of_mem _ htoken⟩
  · exact ⟨_, tail, rfl, List.mem_cons_self⟩

/-- At the end of the text, or before a last semicolon, no statement follows. -/
theorem read_furtherStatement_last {semicolon : Option Unit} {tokens : List Token}
    {text : List Char} (h : maybeSemicolon semicolon tokens) (hlaid : Laid tokens text []) :
    furtherStatement.read text = none := by
  have hoptional : Complete [] (optional (symbol ";")) maybeSemicolon :=
    complete_maybeSemicolon nofun
  refine (read_bind_of (hoptional semicolon tokens text [] h hlaid (ahead_nil _))).trans ?_
  exact absent_statement [] [] (ahead_nil _) nofun

/-! ## §2. A whole text. -/

theorem sound_query {text rest : List Char} {statements : List SpelledStatement}
    (h : query.read text = some (statements, rest)) : SpelledAs text statements := by
  unfold query at h
  rw [read_rule] at h
  obtain ⟨_, m₁, hblanks, h⟩ := read_bind_eq_some.1 h
  obtain ⟨s, m₂, hs, h⟩ := read_bind_eq_some.1 h
  obtain ⟨others, m₃, hothers, h⟩ := read_bind_eq_some.1 h
  obtain ⟨semicolon, m₄, hsemicolon, h⟩ := read_bind_eq_some.1 h
  obtain ⟨_, m₅, hend, h⟩ := read_bind_eq_some.1 h
  obtain ⟨rfl, rfl⟩ := read_pure_eq_some h
  obtain ⟨-, rfl⟩ := Prod.mk.inj (Option.some.inj hblanks)
  obtain ⟨first, hfirst, hfirstLaid⟩ := sound_statement _ _ _ hs
  obtain ⟨more, hmore, hmoreLaid⟩ := sound_furtherStatement.many _ _ _ hothers
  obtain ⟨last, hlast, hlastLaid⟩ := (sound_mark .semicolon).optional _ _ _ hsemicolon
  -- nothing is left over
  have hempty : m₄ = [] := by
    cases m₄ with
    | nil => rfl
    | cons c tail => cases hend
  subst hempty
  refine ⟨text.takeWhile isBlank, skipBlanks text, first ++ (more ++ last), ?_,
    forall_mem_takeWhile isBlank text, hfirstLaid.append (hmoreLaid.append hlastLaid), ?_⟩
  · exact List.takeWhile_append_dropWhile.symm
  · refine ⟨s, others, first, more, rfl, hfirst, hmore, ?_⟩
    cases semicolon with
    | none =>
      obtain rfl : last = [] := hlast
      exact .inl (by rw [List.append_nil])
    | some u =>
      obtain rfl : last = [.mark .semicolon] := hlast
      exact .inr rfl

theorem complete_query {text : List Char} {statements : List SpelledStatement}
    (h : SpelledAs text statements) : query.read text = some (statements, []) := by
  obtain ⟨gap, m₁, tokens, rfl, hgap, hlaid, s, others, first, more, rfl, hs, hothers, htokens⟩ := h
  -- the last semicolon as a phrase of its own
  obtain ⟨semicolon, last, hlast, rfl⟩ : ∃ semicolon last,
      maybeSemicolon semicolon last ∧ tokens = first ++ (more ++ last) := by
    rcases htokens with rfl | rfl
    · exact ⟨none, [], rfl, by rw [List.append_nil]⟩
    · exact ⟨some (), _, rfl, rfl⟩
  obtain ⟨m₂, hfirst, htail⟩ := hlaid.split
  obtain ⟨m₃, hmore, hlastLaid⟩ := htail.split
  have hmark : Begins [.mark .semicolon] (single (fun _ : Unit => .mark .semicolon)) :=
    begins_single (fun _ => List.mem_singleton_self _)
  -- from the end to the front: what stands after each part
  have h₃ : Ahead [.mark .semicolon] m₃ := hmark.optional_ahead hlast hlastLaid (ahead_nil [])
  have h₂ : Ahead afterStatement m₂ :=
    (begins_further.many_ahead hothers hmore h₃).mono (by decide)
  have h₁ : Ahead statementStarts m₁ := begins_statement.ahead hs hfirst h₂
  have hblanks : blanks.read (gap ++ m₁) = some ((), m₁) := by
    show some ((), skipBlanks (gap ++ m₁)) = _
    rw [skipBlanks_gap hgap h₁.stops_blank]
  have hmany : (many furtherStatement).read m₂ = some (others, m₃) :=
    read_many_of (complete_furtherStatement.mono (by decide)) begins_further hothers hmore h₃
      (read_furtherStatement_last hlast hlastLaid)
  have hsemicolon : Complete [] (optional (symbol ";")) maybeSemicolon :=
    complete_maybeSemicolon nofun
  unfold query
  rw [read_rule]
  refine (read_bind_of hblanks).trans ?_
  refine (read_bind_of (complete_statement _ _ _ _ hs hfirst h₂)).trans ?_
  refine (read_bind_of hmany).trans ?_
  exact (read_bind_of (hsemicolon _ _ _ _ hlast hlastLaid (ahead_nil []))).trans rfl

/-- The grammar accepts a text as these statements exactly if it is spelled so. -/
theorem readStatements_eq_ok_iff {text : String} {statements : List SpelledStatement} :
    readStatements text = .ok statements ↔ SpelledAs text.toList statements := by
  unfold readStatements
  dsimp only
  constructor
  · intro h
    cases hread : query.read text.toList with
    | none =>
      rw [hread] at h
      cases h
    | some result =>
      obtain ⟨found, rest⟩ := result
      rw [hread] at h
      obtain rfl := Except.ok.inj h
      exact sound_query hread
  · intro h
    rw [complete_query h]

/-- Behind RETURN the word is the keyword, so that a variable is missing here. -/
example : (readStatements "RETURN distinct").toOption.isSome = false := by decide

example : (readStatements "RETURN a, distinct").toOption.isSome = true := by decide

/-- A text is read as these statements exactly if it spells them: the reading
of queries accepts the language and nothing else, and gives each text the
statements it stands for. -/
theorem parse_eq_ok_iff_spells (text : String) (statements : List GraphStatement) :
    parse text = .ok statements ↔ Spells text statements := by
  unfold Spells
  simp only [← readStatements_eq_ok_iff, ← evaluateStatements_eq_ok_iff]
  unfold parse
  constructor
  · intro h
    cases hread : readStatements text with
    | error e =>
      rw [hread] at h
      cases h
    | ok spelled =>
      rw [hread] at h
      dsimp only at h
      refine ⟨spelled, rfl, ?_⟩
      cases hvalue : evaluateStatements spelled with
      | error l =>
        rw [hvalue] at h
        cases h
      | ok values =>
        rw [hvalue] at h
        obtain rfl := Except.ok.inj h
        rfl
  · intro hex
    obtain ⟨spelled, hread, hvalue⟩ := hex
    rw [hread]
    dsimp only
    rw [hvalue]

/-- No text is ambiguous. -/
theorem Spells.unique {text : String} {left right : List GraphStatement}
    (hleft : Spells text left) (hright : Spells text right) : left = right := by
  obtain ⟨spelled, hspelled, hleft⟩ := hleft
  obtain ⟨other, hother, hright⟩ := hright
  have hsame : spelled = other := by
    rw [← readStatements_eq_ok_iff] at hspelled hother
    rw [hspelled] at hother
    exact Except.ok.inj hother
  subst hsame
  rw [← evaluateStatements_eq_ok_iff] at hleft hright
  rw [hleft] at hright
  exact Except.ok.inj hright

end PropertyGraph.Query
