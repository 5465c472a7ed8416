/-
  PropertyGraph.Proofs.Query.Tokens
  ─────────────────────────────────
  **THE SMALLEST PHRASES.**

  A token and the blanks after it: names, marks, keywords and literals are
  each read soundly and completely, and are not read where something else
  stands.

  Two of these need a look at more than the kind of what comes next.  A number
  is read to its end only if what follows does not go on with it.  And a
  keyword is read from a name too, if the name spells it.
-/
import PropertyGraph.Proofs.Query.Phrase

namespace PropertyGraph.Query

open PropertyGraph.Text
open Reading

/-! ## §1. Scanners. -/

variable {α : Type}

theorem read_lexeme (scan : List Char → Option (α × List Char)) (text : List Char) :
    (lexeme scan).read text
      = (scan text).map (fun result => (result.1, skipBlanks result.2)) := rfl

/-- A scanner that takes the characters of a token off the text. -/
theorem sound_lexeme {scan : List Char → Option (α × List Char)} (token : α → Token)
    (h : ∀ text a after, scan text = some (a, after) →
      ∃ chars, text = chars ++ after ∧ (token a).SpelledBy chars
        ∧ ((token a).IsWord → Stops isIdentifierChar after)) :
    Sound (lexeme scan) (single token) := by
  intro text a rest hread
  rw [read_lexeme] at hread
  obtain ⟨⟨b, after⟩, hscan, hresult⟩ := Option.map_eq_some_iff.1 hread
  obtain ⟨rfl, rfl⟩ := Prod.mk.inj hresult
  obtain ⟨chars, rfl, hspelled, hword⟩ := h _ _ _ hscan
  -- the blanks that are skipped are the gap after the token
  have hafter : after.takeWhile isBlank ++ skipBlanks after = after :=
    List.takeWhile_append_dropWhile
  refine ⟨[token b], rfl, laid_singleton_iff.2 ⟨chars, after.takeWhile isBlank, ?_, hspelled, ?_,
    forall_mem_takeWhile isBlank after⟩⟩
  · rw [hafter]
  · rw [hafter]
    exact hword

theorem complete_lexeme {follow : List Kind} {scan : List Char → Option (α × List Char)}
    (token : α → Token)
    (h : ∀ a chars gap rest, (token a).SpelledBy chars →
      ((token a).IsWord → Stops isIdentifierChar (gap ++ rest)) →
      (∀ c ∈ gap, isBlank c = true) → Ahead follow rest →
      scan (chars ++ (gap ++ rest)) = some (a, gap ++ rest)) :
    Complete follow (lexeme scan) (single token) := by
  intro a tokens text rest htokens hlaid hrest
  obtain rfl : tokens = [token a] := htokens
  obtain ⟨chars, gap, rfl, hspelled, hword, hgap⟩ := laid_singleton_iff.1 hlaid
  rw [read_lexeme, h a chars gap rest hspelled hword hgap hrest]
  show some (a, skipBlanks (gap ++ rest)) = _
  rw [skipBlanks_gap hgap hrest.stops_blank]

/-! ## §2. Words and marks. -/

theorem sound_name (name : Rule) : Sound (token name scanIdentifier) Spelling.name := by
  refine sound_lexeme Token.name ?_
  intro text s after hscan
  obtain ⟨chars, htext, hname, hs, hstops⟩ := scanIdentifier_eq_some hscan
  exact ⟨chars, htext, ⟨hname, hs⟩, fun _ => hstops⟩

theorem complete_name (follow : List Kind) (name : Rule) :
    Complete follow (token name scanIdentifier) Spelling.name := by
  refine complete_lexeme Token.name ?_
  intro s chars gap rest h hword _ _
  obtain ⟨hname, rfl⟩ := h
  exact scanIdentifier_name hname (hword trivial)

theorem absent_name (name : Rule) :
    Absent (.name :: .literal :: Kind.keywords) (token name scanIdentifier) := by
  intro kinds text hahead hkinds
  have hall : ∀ m : Mark, isIdentifierStart m.first = false := by
    intro m
    cases m <;> decide
  -- marks do not begin like names
  have hstops : Stops isIdentifierStart text := by
    refine hahead.stops ?_
    intro k hk c hc
    cases k with
    | name => exact absurd List.mem_cons_self (hkinds _ hk)
    | literal => exact absurd (List.mem_cons_of_mem _ List.mem_cons_self) (hkinds _ hk)
    | keyword word =>
      refine absurd ?_ (hkinds _ hk)
      cases word <;> decide
    | mark m =>
      rw [beq_iff_eq.1 hc]
      exact hall m
  show (lexeme scanIdentifier).read text = none
  rw [read_lexeme, scanIdentifier_eq_none hstops]
  rfl

theorem sound_mark (m : Mark) : Sound (symbol m.text) (single (fun _ => .mark m)) := by
  refine sound_lexeme (fun _ => Token.mark m) ?_
  intro text u after hscan
  by_cases hm : m.text.toList.isPrefixOf text = true
  · rw [if_pos hm] at hscan
    obtain ⟨-, rfl⟩ := Prod.mk.inj (Option.some.inj hscan)
    obtain ⟨tail, rfl⟩ := List.isPrefixOf_iff_prefix.1 hm
    refine ⟨m.text.toList, ?_, rfl, fun hword => absurd hword id⟩
    rw [← String.length_toList, List.drop_left]
  · rw [if_neg hm] at hscan
    cases hscan

theorem complete_mark (follow : List Kind) (m : Mark) :
    Complete follow (symbol m.text) (single (fun _ => .mark m)) := by
  refine complete_lexeme (fun _ => Token.mark m) ?_
  intro u chars gap rest heq _ _ _
  subst heq
  rw [if_pos (List.isPrefixOf_iff_prefix.2 (List.prefix_append _ _)), ← String.length_toList,
    List.drop_left]

/-- No two marks begin alike; only numbers may begin like a mark. -/
theorem absent_mark (m : Mark) : Absent [.mark m, .literal] (symbol m.text) := by
  intro kinds text hahead hkinds
  have hall : ∀ k ∈ Kind.all, k ∉ [.mark m, .literal] → k.begins m.first = false := by
    cases m <;> decide
  -- the next token begins with another character
  have hstops : Stops (· == m.first) text := by
    refine hahead.stops ?_
    intro k hk c hc
    cases hfirst : c == m.first with
    | false => rfl
    | true =>
      rw [beq_iff_eq.1 hfirst, hall k k.mem_all (hkinds k hk)] at hc
      cases hc
  unfold symbol
  rw [read_lexeme, if_neg]
  · rfl
  · intro hprefix
    obtain ⟨tail, rfl⟩ := List.isPrefixOf_iff_prefix.1 hprefix
    rw [mark_text] at hstops
    have hfirst : (m.first == m.first) = false := hstops _ _ rfl
    rw [beq_self_eq_true] at hfirst
    cases hfirst

theorem sound_keyword (name : Rule) (k : Keyword) :
    Sound (keyword name k.word) (single (fun _ => .keyword k)) := by
  refine sound_lexeme (fun _ => Token.keyword k) ?_
  intro text u after hscan
  obtain ⟨chars, htext, hchars, hstops⟩ := scanKeyword_eq_some hscan
  exact ⟨chars, htext, hchars, fun _ => hstops⟩

theorem complete_keyword (follow : List Kind) (name : Rule) (k : Keyword) :
    Complete follow (keyword name k.word) (single (fun _ => .keyword k)) := by
  refine complete_lexeme (fun _ => Token.keyword k) ?_
  intro u chars gap rest hspelled hword _ _
  exact scanKeyword_keyword hspelled (hword trivial)

/-- A keyword is read from a name that spells it, and from no other name. -/
theorem read_keyword_name_eq_none_iff (name : Rule) (k : Keyword) {s : String}
    {tokens : List Token} {text rest : List Char} (h : Laid (.name s :: tokens) text rest) :
    (keyword name k.word).read text = none ↔ ¬ Spelling.Names k s := by
  cases h with
  | cons hspelled hword hgap hlaid =>
    obtain ⟨hname, rfl⟩ := hspelled
    show (lexeme (scanKeyword k.word)).read _ = none ↔ _
    rw [read_lexeme, Option.map_eq_none_iff]
    unfold Spelling.Names
    rw [String.toList_ofList]
    constructor
    · intro hnone heq
      rw [scanKeyword_keyword heq (hword trivial)] at hnone
      cases hnone
    · intro hne
      exact scanKeyword_eq_none (keyword_letters k) hname.forall_mem (hword trivial) hne

theorem absent_keyword (name : Rule) (k : Keyword) :
    Absent [.keyword k, .name, .literal] (keyword name k.word) := by
  intro kinds text hahead hkinds
  show (lexeme (scanKeyword k.word)).read text = none
  rw [read_lexeme, Option.map_eq_none_iff]
  have hmark : ∀ m : Mark, isIdentifierChar m.first = false := by
    intro m
    cases m <;> decide
  -- where no word stands, the empty run of letters is not the keyword either
  have hempty : Stops isIdentifierChar text → scanKeyword k.word text = none := by
    intro hstops
    have hword : [].map Char.toUpper ≠ k.word.toList := by
      rw [keyword_word]
      exact (List.cons_ne_nil _ _).symm
    exact @scanKeyword_eq_none _ [] _ (keyword_letters k)
      (fun c hc => absurd hc List.not_mem_nil) hstops hword
  rcases hahead.cases with rfl | ⟨t, chars, after, rfl, hspelled, hkind, hword⟩
  · exact hempty (stops_nil _)
  · cases t with
    | name s => exact absurd (List.mem_cons_of_mem _ List.mem_cons_self) (hkinds _ hkind)
    | literal l =>
      refine absurd ?_ (hkinds _ hkind)
      exact List.mem_cons_of_mem _ (List.mem_cons_of_mem _ List.mem_cons_self)
    | mark m =>
      refine hempty ?_
      obtain ⟨c, tail, rfl, hc⟩ := hspelled.begins
      rw [beq_iff_eq.1 hc]
      exact stops_cons (hmark m)
    | keyword other =>
      have hother : chars.map Char.toUpper = other.word.toList := hspelled
      refine scanKeyword_eq_none (keyword_letters k) (hspelled.letters trivial) (hword trivial) ?_
      rw [hother]
      have hne : other ≠ k := by
        intro heq
        subst heq
        exact absurd List.mem_cons_self (hkinds _ hkind)
      -- no keyword is spelled like another
      have hwords : ∀ j l : Keyword, j ≠ l → j.word.toList ≠ l.word.toList := by
        intro j l
        cases j <;> cases l <;> decide
      exact hwords other k hne

/-! ## §3. Literals. -/

theorem not_isLower_of_isDigit {c : Char} (h : c.isDigit = true) : c.isLower = false := by
  cases hlower : c.isLower with
  | false => rfl
  | true =>
    unfold Char.isLower at hlower
    simp only [Char.isDigit, Bool.and_eq_true, decide_eq_true_eq] at h hlower
    exact absurd (UInt32.le_trans hlower.1 h.2) (by decide)

/-- Only names, literals and the dot could go on with a number. -/
theorem continuesNumber_of_begins {k : Kind} {c : Char} (h : k.begins c = true)
    (hk : k ∉ [.name, .literal, .mark .dot]) : continuesNumber c = false := by
  have hmark : ∀ m : Mark, m ≠ .dot → continuesNumber m.first = false := by
    intro m
    cases m <;> decide
  have hfirst : ∀ w : Keyword, continuesNumber w.first = false := by
    intro w
    cases w <;> decide
  have hupper : ∀ w : Keyword, ('.'.toUpper == w.first) = false ∧ ('e'.toUpper == w.first) = false
      ∧ ('E'.toUpper == w.first) = false := by
    intro w
    cases w <;> decide
  cases k with
  | name => exact absurd List.mem_cons_self hk
  | literal => exact absurd (List.mem_cons_of_mem _ List.mem_cons_self) hk
  | mark m =>
    rw [beq_iff_eq.1 h]
    refine hmark m ?_
    intro heq
    subst heq
    exact hk (by decide)
  | keyword w =>
    have hc : (c.toUpper == w.first) = true := h
    cases hgoes : continuesNumber c with
    | false => rfl
    | true =>
      simp only [continuesNumber, Bool.or_eq_true, beq_iff_eq] at hgoes
      rcases hgoes with ((hdigit | rfl) | rfl) | rfl
      · -- a digit is its own capital
        rcases isLower_or_toUpper_eq c with hlower | hsame
        · rw [not_isLower_of_isDigit hdigit] at hlower
          cases hlower
        · have hnot := hfirst w
          rw [← beq_iff_eq.1 hc, hsame] at hnot
          simp only [continuesNumber, hdigit, Bool.true_or] at hnot
          cases hnot
      · rw [(hupper w).1] at hc
        cases hc
      · rw [(hupper w).2.1] at hc
        cases hc
      · rw [(hupper w).2.2] at hc
        cases hc

theorem stops_gap {p : Char → Bool} {gap rest : List Char}
    (hgap : ∀ c ∈ gap, isBlank c = true) (hblank : ∀ c, isBlank c = true → p c = false)
    (hrest : Stops p rest) : Stops p (gap ++ rest) := by
  cases gap with
  | nil => exact hrest
  | cons c tail => exact stops_cons (hblank c (hgap c List.mem_cons_self))

theorem not_continuesNumber_of_isBlank {c : Char} (h : isBlank c = true) :
    continuesNumber c = false := by
  simp only [isBlank, Bool.or_eq_true, beq_iff_eq] at h
  rcases h with ((rfl | rfl) | rfl) | rfl <;> decide

theorem sound_literal : Sound literal (single Token.literal) := by
  have hstring : Sound (token .string readQuoted) (single (fun p => .literal (.string p))) := by
    refine sound_lexeme (fun p => Token.literal (.string p)) ?_
    intro text pieces after hscan
    obtain ⟨chars, hspelled, htext⟩ := readQuoted_eq_some hscan
    exact ⟨chars, htext, hspelled, fun hword => absurd hword id⟩
  have hnumber : Sound (token .number readNumeral) (single (fun n => .literal (.number n))) := by
    refine sound_lexeme (fun n => Token.literal (.number n)) ?_
    intro text n after hscan
    obtain ⟨hlegal, htext⟩ := readNumeral_eq_some hscan
    exact ⟨n.text, htext, ⟨hlegal, rfl⟩, fun hword => absurd hword id⟩
  intro text l rest hread
  unfold literal at hread
  rw [read_choice, Option.or_eq_some_iff, read_map, read_map] at hread
  rcases hread with hread | ⟨-, hread⟩
  · obtain ⟨⟨pieces, left⟩, hpieces, hresult⟩ := Option.map_eq_some_iff.1 hread
    obtain ⟨rfl, rfl⟩ := Prod.mk.inj hresult
    exact hstring text pieces left hpieces
  · obtain ⟨⟨n, left⟩, hnumeral, hresult⟩ := Option.map_eq_some_iff.1 hread
    obtain ⟨rfl, rfl⟩ := Prod.mk.inj hresult
    exact hnumber text n left hnumeral

theorem complete_literal {follow : List Kind}
    (hfollow : ∀ k ∈ follow, k ∉ [.name, .literal, .mark .dot]) :
    Complete follow literal (single Token.literal) := by
  have hstring : Complete follow (token .string readQuoted)
      (single (fun p => .literal (.string p))) := by
    refine complete_lexeme (fun p => Token.literal (.string p)) ?_
    intro pieces chars gap rest hspelled _ _ _
    exact readQuoted_string hspelled _
  have hnumber : Complete follow (token .number readNumeral)
      (single (fun n => .literal (.number n))) := by
    refine complete_lexeme (fun n => Token.literal (.number n)) ?_
    intro n chars gap rest hspelled _ hgap hrest
    obtain ⟨hlegal, rfl⟩ := hspelled
    refine readNumeral_text hlegal (stops_gap hgap ?_ ?_)
    · exact fun c hc => not_continuesNumber_of_isBlank hc
    · exact hrest.stops (fun k hk c hc => continuesNumber_of_begins hc (hfollow k hk))
  intro l tokens text rest htokens hlaid hrest
  unfold literal
  rw [read_choice, read_map, read_map]
  cases l with
  | string pieces =>
    rw [hstring pieces tokens text rest htokens hlaid hrest]
    rfl
  | number n =>
    -- a number does not begin with a quote
    have hquoted : (token .string readQuoted).read text = none := by
      obtain rfl : tokens = [.literal (.number n)] := htokens
      obtain ⟨_, gap, rfl, ⟨hlegal, rfl⟩, -, -⟩ := laid_singleton_iff.1 hlaid
      obtain ⟨c, tail, htext, hc⟩ := numeral_begins hlegal
      have hquote : (c == '"') = false := by
        rcases hc with hc | rfl | rfl | rfl
        · cases hq : c == '"' with
          | false => rfl
          | true =>
            rw [beq_iff_eq.1 hq] at hc
            cases hc
        · rfl
        · rfl
        · rfl
      show (lexeme readQuoted).read _ = none
      rw [htext, List.cons_append, read_lexeme, readQuoted_eq_none (stops_cons hquote)]
      rfl
    rw [hquoted, hnumber n tokens text rest htokens hlaid hrest]
    rfl

end PropertyGraph.Query
