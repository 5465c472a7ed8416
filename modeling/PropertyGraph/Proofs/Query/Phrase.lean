/-
  PropertyGraph.Proofs.Query.Phrase
  ─────────────────────────────────
  **READINGS AND THE PHRASES THEY READ.**

  A reading takes the first alternative that works and repeats as long as it
  can, so whether it reads a phrase depends on what comes after the phrase.
  Three statements about a reading are put together rule by rule:

    * `Sound`: what it has read is a phrase of the grammar;
    * `Complete`: a phrase is read as a whole, if the token after it is of one
      of the kinds that may follow;
    * `Absent`: it reads nothing where no phrase of its kind begins.

  Kinds of tokens are few, so that every side condition about what may follow
  what is decided.
-/
import PropertyGraph.Proofs.Query.Scanning

namespace PropertyGraph.Query

open PropertyGraph.Text
open Reading

/-! ## §1. Layouts. -/

theorem Laid.append {left right : List Token} {text mid rest : List Char}
    (hleft : Laid left text mid) (hright : Laid right mid rest) :
    Laid (left ++ right) text rest := by
  induction hleft with
  | nil => exact hright
  | cons hspelled hword hgap _ ih => exact .cons hspelled hword hgap (ih hright)

theorem Laid.split {left right : List Token} {text rest : List Char}
    (h : Laid (left ++ right) text rest) :
    ∃ mid, Laid left text mid ∧ Laid right mid rest := by
  induction left generalizing text with
  | nil => exact ⟨text, .nil, h⟩
  | cons token tail ih =>
    cases h with
    | cons hspelled hword hgap hlaid =>
      obtain ⟨mid, hleft, hright⟩ := ih hlaid
      exact ⟨mid, .cons hspelled hword hgap hleft, hright⟩

theorem Laid.uncons {token : Token} {tokens : List Token} {text rest : List Char}
    (h : Laid (token :: tokens) text rest) :
    ∃ mid, Laid [token] text mid ∧ Laid tokens mid rest :=
  @Laid.split [token] tokens text rest h

/-- One token and the blanks after it. -/
theorem laid_singleton_iff {token : Token} {text rest : List Char} :
    Laid [token] text rest ↔ ∃ chars gap, text = chars ++ (gap ++ rest) ∧ token.SpelledBy chars
      ∧ (token.IsWord → Stops isIdentifierChar (gap ++ rest)) ∧ ∀ c ∈ gap, isBlank c = true := by
  constructor
  · intro h
    cases h with
    | cons hspelled hword hgap hlaid =>
      cases hlaid
      exact ⟨_, _, rfl, hspelled, hword, hgap⟩
  · intro hex
    obtain ⟨chars, gap, rfl, hspelled, hword, hgap⟩ := hex
    exact .cons hspelled hword hgap .nil

/-! ## §2. Kinds of tokens. -/

/-- What matters about a token for what may stand before it. -/
inductive Kind where
  | keyword (keyword : Keyword)
  | name
  | mark (mark : Mark)
  | literal
  deriving DecidableEq

/-- The kind of a token. -/
def Token.kind : Token → Kind
  | .keyword k => .keyword k
  | .name _ => .name
  | .mark m => .mark m
  | .literal _ => .literal

/-- The character a mark begins with. -/
def Mark.first (m : Mark) : Char := m.text.toList.headD ' '

/-- The letter a keyword begins with. -/
def Keyword.first (k : Keyword) : Char := k.word.toList.headD ' '

/-- May a token of this kind begin with the character? -/
def Kind.begins : Kind → Char → Bool
  | .keyword k, c => c.toUpper == k.first
  | .name, c => isIdentifierStart c
  | .mark m, c => c == m.first
  | .literal, c => c == '"' || c.isDigit || c == '+' || c == '-' || c == '.'

/-- Every keyword. -/
def Kind.keywords : List Kind :=
  [.keyword .create, .keyword .search, .keyword .condition, .keyword .project, .keyword .delete,
    .keyword .distinct]

/-- Every kind. -/
def Kind.all : List Kind :=
  keywords ++ [.name, .literal, .mark .openParen, .mark .closeParen, .mark .openArrow,
    .mark .closeArrow, .mark .openBrace, .mark .closeBrace, .mark .comma, .mark .colon,
    .mark .dot, .mark .equals, .mark .semicolon]

theorem Kind.mem_all (kind : Kind) : kind ∈ Kind.all := by
  cases kind with
  | keyword k => cases k <;> decide
  | name => decide
  | mark m => cases m <;> decide
  | literal => decide

theorem mark_text (m : Mark) : m.text.toList = m.first :: m.text.toList.tail := by
  cases m <;> rfl

theorem keyword_word (k : Keyword) : k.word.toList = k.first :: k.word.toList.tail := by
  cases k <;> rfl

theorem keyword_letters (k : Keyword) : ∀ c ∈ k.word.toList, isIdentifierChar c = true := by
  refine List.all_eq_true.1 ?_
  cases k <;> decide

/-- Every token has a first character. -/
theorem Token.SpelledBy.begins {token : Token} {chars : List Char} (h : token.SpelledBy chars) :
    ∃ c tail, chars = c :: tail ∧ token.kind.begins c = true := by
  cases token with
  | keyword k =>
    have hword : chars.map Char.toUpper = k.word.toList := h
    rw [keyword_word] at hword
    obtain ⟨c, tail, rfl, hc, -⟩ := List.map_eq_cons_iff.1 hword
    exact ⟨c, tail, rfl, beq_iff_eq.2 hc⟩
  | name s =>
    obtain ⟨⟨c, tail, rfl, hc, -⟩, -⟩ := h
    exact ⟨c, tail, rfl, hc⟩
  | mark m =>
    have hmark : chars = m.text.toList := h
    rw [mark_text] at hmark
    exact ⟨m.first, _, hmark, beq_self_eq_true _⟩
  | literal l =>
    cases l with
    | string pieces =>
      obtain ⟨-, rfl⟩ := h
      exact ⟨'"', _, rfl, rfl⟩
    | number n =>
      obtain ⟨hlegal, rfl⟩ := h
      -- a number begins with a digit, a sign or a point
      obtain ⟨c, tail, htext, hc⟩ := numeral_begins hlegal
      refine ⟨c, tail, htext, ?_⟩
      show (_ || _ || _ || _ || _) = true
      rcases hc with hc | rfl | rfl | rfl
      · rw [hc, Bool.or_true]
        rfl
      · rfl
      · rfl
      · rfl

/-- A keyword or a name is a run of identifier characters. -/
theorem Token.SpelledBy.letters {token : Token} {chars : List Char} (h : token.SpelledBy chars)
    (hword : token.IsWord) : ∀ c ∈ chars, isIdentifierChar c = true := by
  cases token with
  | keyword k =>
    have hletters : chars.map Char.toUpper = k.word.toList := h
    intro c hc
    refine isIdentifierChar_of_toUpper (keyword_letters k _ ?_)
    rw [← hletters]
    exact List.mem_map_of_mem hc
  | name s => exact h.1.forall_mem
  | mark m => exact absurd hword id
  | literal l => exact absurd hword id

/-- Nothing begins with a blank. -/
theorem Kind.not_begins_blank {kind : Kind} {c : Char} (h : kind.begins c = true) :
    isBlank c = false := by
  have hall : ∀ k ∈ Kind.all, k.begins ' ' = false ∧ k.begins '\t' = false
      ∧ k.begins '\r' = false ∧ k.begins '\n' = false := by decide
  obtain ⟨hspace, htab, hreturn, hline⟩ := hall kind kind.mem_all
  cases hblank : isBlank c with
  | false => rfl
  | true =>
    simp only [isBlank, Bool.or_eq_true, beq_iff_eq] at hblank
    rcases hblank with ((rfl | rfl) | rfl) | rfl
    · rw [hspace] at h
      cases h
    · rw [htab] at h
      cases h
    · rw [hreturn] at h
      cases h
    · rw [hline] at h
      cases h

/-! ## §3. What lies ahead. -/

/-- The text is a layout of tokens, and the first of them, if there are any, is
of one of these kinds. -/
def Ahead (kinds : List Kind) (text : List Char) : Prop :=
  ∃ tokens, Laid tokens text [] ∧ ∀ token tail, tokens = token :: tail → token.kind ∈ kinds

theorem ahead_nil (kinds : List Kind) : Ahead kinds [] :=
  ⟨[], .nil, fun _ _ h => nomatch h⟩

theorem Ahead.mono {kinds more : List Kind} {text : List Char} (h : Ahead kinds text)
    (hmore : ∀ k ∈ kinds, k ∈ more) : Ahead more text := by
  obtain ⟨tokens, hlaid, hkind⟩ := h
  exact ⟨tokens, hlaid, fun token tail heq => hmore _ (hkind token tail heq)⟩

/-- Tokens ahead of other tokens. -/
theorem Laid.ahead {token : Token} {tokens : List Token} {text rest : List Char}
    {kinds : List Kind} (h : Laid (token :: tokens) text rest) (hrest : Ahead kinds rest) :
    Ahead [token.kind] text := by
  obtain ⟨more, hmore, -⟩ := hrest
  refine ⟨_, h.append hmore, ?_⟩
  intro first tail heq
  obtain ⟨rfl, -⟩ := List.cons.inj heq
  exact List.mem_singleton_self _

/-- Either the text is at its end, or a token of one of the kinds stands there. -/
theorem Ahead.cases {kinds : List Kind} {text : List Char} (h : Ahead kinds text) :
    text = [] ∨ ∃ (token : Token) (chars after : List Char), text = chars ++ after
      ∧ token.SpelledBy chars
      ∧ token.kind ∈ kinds ∧ (token.IsWord → Stops isIdentifierChar after) := by
  obtain ⟨tokens, hlaid, hkind⟩ := h
  cases hlaid with
  | nil => exact .inl rfl
  | cons hspelled hword hgap hlaid => exact .inr ⟨_, _, _, rfl, hspelled, hkind _ _ rfl, hword⟩

theorem Ahead.stops {kinds : List Kind} {text : List Char} {p : Char → Bool}
    (h : Ahead kinds text) (hp : ∀ k ∈ kinds, ∀ c, k.begins c = true → p c = false) :
    Stops p text := by
  rcases h.cases with rfl | ⟨token, chars, after, rfl, hspelled, hkind, -⟩
  · exact stops_nil p
  · obtain ⟨c, tail, rfl, hc⟩ := hspelled.begins
    exact stops_cons (hp _ hkind c hc)

theorem Ahead.stops_blank {kinds : List Kind} {text : List Char} (h : Ahead kinds text) :
    Stops isBlank text :=
  h.stops (fun _ _ _ hc => Kind.not_begins_blank hc)

/-- Blanks in front of a token are skipped, and nothing else. -/
theorem skipBlanks_gap {gap rest : List Char} (hgap : ∀ c ∈ gap, isBlank c = true)
    (hrest : Stops isBlank rest) : skipBlanks (gap ++ rest) = rest :=
  dropWhile_run hgap hrest

/-! ## §4. What a reading reads. -/

variable {α β : Type}

/-- What has been read is a phrase. -/
def Sound (reading : Reading α) (phrase : Spelling α) : Prop :=
  ∀ text a rest, reading.read text = some (a, rest) →
    ∃ tokens, phrase a tokens ∧ Laid tokens text rest

/-- A phrase is read, and nothing more, if a token of these kinds or nothing
comes after it. -/
def Complete (follow : List Kind) (reading : Reading α) (phrase : Spelling α) : Prop :=
  ∀ a tokens text rest, phrase a tokens → Laid tokens text rest → Ahead follow rest →
    reading.read text = some (a, rest)

/-- Nothing is read, unless a token of these kinds comes next. -/
def Absent (starts : List Kind) (reading : Reading α) : Prop :=
  ∀ kinds text, Ahead kinds text → (∀ k ∈ kinds, k ∉ starts) → reading.read text = none

/-- A phrase begins with a token of these kinds. -/
def Begins (starts : List Kind) (phrase : Spelling α) : Prop :=
  ∀ a tokens, phrase a tokens → ∃ token tail, tokens = token :: tail ∧ token.kind ∈ starts

theorem Complete.mono {follow fewer : List Kind} {reading : Reading α} {phrase : Spelling α}
    (h : Complete follow reading phrase) (hfewer : ∀ k ∈ fewer, k ∈ follow) :
    Complete fewer reading phrase :=
  fun a tokens text rest hphrase hlaid hrest =>
    h a tokens text rest hphrase hlaid (hrest.mono hfewer)

/-- A phrase ahead. -/
theorem Begins.ahead {starts kinds : List Kind} {phrase : Spelling α} (h : Begins starts phrase)
    {a : α} {tokens : List Token} {text rest : List Char} (hphrase : phrase a tokens)
    (hlaid : Laid tokens text rest) (hrest : Ahead kinds rest) : Ahead starts text := by
  obtain ⟨token, tail, rfl, htoken⟩ := h a tokens hphrase
  refine (hlaid.ahead hrest).mono ?_
  intro k hk
  rw [List.mem_singleton.1 hk]
  exact htoken

/-! ## §5. Sequence and choice. -/

theorem read_bind_eq_some {first : Reading α} {next : α → Reading β} {text rest : List Char}
    {b : β} :
    (first >>= next).read text = some (b, rest)
      ↔ ∃ a mid, first.read text = some (a, mid) ∧ (next a).read mid = some (b, rest) := by
  rw [read_bind, Option.bind_eq_some_iff]
  exact ⟨fun ⟨⟨a, mid⟩, h⟩ => ⟨a, mid, h⟩, fun ⟨a, mid, h⟩ => ⟨(a, mid), h⟩⟩

theorem read_bind_of {first : Reading α} {next : α → Reading β} {text mid : List Char} {a : α}
    (h : first.read text = some (a, mid)) : (first >>= next).read text = (next a).read mid := by
  rw [read_bind, h]
  rfl

theorem read_pure_eq_some {a b : α} {text rest : List Char}
    (h : (pure a : Reading α).read text = some (b, rest)) : a = b ∧ text = rest :=
  Prod.mk.inj (Option.some.inj h)

theorem read_map (f : α → β) (reading : Reading α) (text : List Char) :
    (f <$> reading).read text = (reading.read text).map (fun result => (f result.1, result.2)) := by
  show (reading >>= fun a => pure (f a)).read text = _
  rw [read_bind]
  cases reading.read text <;> rfl

theorem read_choice (first second : Reading α) (text : List Char) :
    (first <|> second).read text = (first.read text).or (second.read text) :=
  read_orElse first second text

theorem Absent.bind {starts : List Kind} {first : Reading α} {next : α → Reading β}
    (h : Absent starts first) : Absent starts (first >>= next) := by
  intro kinds text hahead hkinds
  rw [read_bind, h kinds text hahead hkinds]
  rfl

theorem Absent.choice {starts : List Kind} {first second : Reading α}
    (hfirst : Absent starts first) (hsecond : Absent starts second) :
    Absent starts (first <|> second) := by
  intro kinds text hahead hkinds
  rw [read_choice, hfirst kinds text hahead hkinds, hsecond kinds text hahead hkinds]
  rfl

theorem Absent.mono {starts more : List Kind} {reading : Reading α} (h : Absent starts reading)
    (hmore : ∀ k ∈ starts, k ∈ more) : Absent more reading :=
  fun kinds text hahead hkinds =>
    h kinds text hahead (fun k hk hstarts => hkinds k hk (hmore k hstarts))

theorem Sound.choice {first second : Reading α} {phrase : Spelling α}
    (hfirst : Sound first phrase) (hsecond : Sound second phrase) :
    Sound (first <|> second) phrase := by
  intro text a rest h
  rw [read_choice, Option.or_eq_some_iff] at h
  rcases h with h | ⟨-, h⟩
  · exact hfirst text a rest h
  · exact hsecond text a rest h

/-- A phrase that is one token. -/
def single (token : α → Token) : Spelling α := fun a tokens => tokens = [token a]

theorem begins_single {starts : List Kind} {token : α → Token}
    (h : ∀ a, (token a).kind ∈ starts) : Begins starts (single token) :=
  fun a _ htokens => ⟨token a, [], htokens, h a⟩

theorem Sound.behind {token : Token} {first : Reading Unit} {reading : Reading α}
    {phrase : Spelling α} (hfirst : Sound first (single (fun _ => token)))
    (h : Sound reading phrase) :
    Sound (first >>= fun _ => reading) (Spelling.behind token phrase) := by
  intro text a rest hread
  obtain ⟨u, mid, hmid, hread⟩ := read_bind_eq_some.1 hread
  obtain ⟨_, rfl, hlaid⟩ := hfirst _ _ _ hmid
  obtain ⟨tokens, hphrase, hrest⟩ := h _ _ _ hread
  exact ⟨token :: tokens, ⟨tokens, hphrase, rfl⟩, hlaid.append hrest⟩

theorem Complete.behind {starts follow : List Kind} {token : Token} {first : Reading Unit}
    {reading : Reading α} {phrase : Spelling α}
    (hfirst : Complete starts first (single (fun _ => token)))
    (h : Complete follow reading phrase) (hbegins : Begins starts phrase) :
    Complete follow (first >>= fun _ => reading) (Spelling.behind token phrase) := by
  intro a tokens text rest hphrase hlaid hrest
  obtain ⟨tail, hphrase, rfl⟩ := hphrase
  obtain ⟨mid, hmid, hlaid⟩ := hlaid.uncons
  rw [read_bind_of (hfirst () _ _ _ rfl hmid (hbegins.ahead hphrase hlaid hrest))]
  exact h a tail mid rest hphrase hlaid hrest

theorem begins_behind {starts : List Kind} {token : Token} {phrase : Spelling α}
    (h : token.kind ∈ starts) : Begins starts (Spelling.behind token phrase) := by
  intro a tokens hex
  obtain ⟨tail, -, rfl⟩ := hex
  exact ⟨token, tail, rfl, h⟩

/-! ## §6. Phrases that may be left out. -/

theorem read_optional (reading : Reading α) (text : List Char) :
    (Reading.optional reading).read text
      = match reading.read text with
        | some (a, rest) => some (some a, rest)
        | none => some (none, text) := by
  unfold Reading.optional
  rw [read_orElse]
  show ((match reading.read text with
    | some (a, rest) => some (some a, rest)
    | none => none).or _) = _
  cases reading.read text with
  | none => rfl
  | some result => rfl

theorem Sound.optional {reading : Reading α} {phrase : Spelling α} (h : Sound reading phrase) :
    Sound (Reading.optional reading) (Spelling.optional phrase) := by
  intro text a rest hread
  rw [read_optional] at hread
  split at hread
  next value left hsome =>
    obtain ⟨rfl, rfl⟩ := Prod.mk.inj (Option.some.inj hread)
    exact h _ _ _ hsome
  next =>
    obtain ⟨rfl, rfl⟩ := Prod.mk.inj (Option.some.inj hread)
    exact ⟨[], rfl, .nil⟩

theorem Complete.optional {starts follow : List Kind} {reading : Reading α} {phrase : Spelling α}
    (h : Complete follow reading phrase) (habsent : Absent starts reading)
    (hdisjoint : ∀ k ∈ follow, k ∉ starts) :
    Complete follow (Reading.optional reading) (Spelling.optional phrase) := by
  intro a tokens text rest hphrase hlaid hrest
  rw [read_optional]
  cases a with
  | some value =>
    rw [h value tokens text rest hphrase hlaid hrest]
  | none =>
    have hnone : tokens = [] := hphrase
    subst hnone
    cases hlaid
    -- left out: what comes next cannot be taken for the phrase
    rw [habsent follow text hrest hdisjoint]

/-- What comes next, if a phrase that may be left out comes first. -/
theorem Begins.optional_ahead {starts kinds : List Kind} {phrase : Spelling α}
    (h : Begins starts phrase) {a : Option α} {tokens : List Token} {text rest : List Char}
    (hphrase : Spelling.optional phrase a tokens) (hlaid : Laid tokens text rest)
    (hrest : Ahead kinds rest) : Ahead (starts ++ kinds) text := by
  cases a with
  | some value =>
    refine (h.ahead hphrase hlaid hrest).mono ?_
    intro k hk
    exact List.mem_append_left kinds hk
  | none =>
    have hnone : tokens = [] := hphrase
    subst hnone
    cases hlaid
    refine hrest.mono ?_
    intro k hk
    exact List.mem_append_right starts hk

/-! ## §7. Repetition. -/

/-- Every token takes a character at least. -/
theorem Laid.length_le {tokens : List Token} {text rest : List Char} (h : Laid tokens text rest) :
    tokens.length + rest.length ≤ text.length := by
  induction h with
  | nil => simp only [List.length_nil, Nat.zero_add, Nat.le_refl]
  | cons hspelled hword hgap hlaid ih =>
    obtain ⟨c, tail, rfl, -⟩ := hspelled.begins
    simp only [List.length_cons, List.length_append]
    omega

theorem length_le_of_many {starts : List Kind} {phrase : Spelling α}
    (hbegins : Begins starts phrase) {items : List α} {tokens : List Token}
    (h : Spelling.Many phrase items tokens) :
    items.length ≤ tokens.length := by
  induction h with
  | nil => exact Nat.le_refl _
  | cons hphrase _ ih =>
    obtain ⟨token, tail, rfl, -⟩ := hbegins _ _ hphrase
    simp only [List.length_cons, List.length_append]
    omega

theorem Sound.many {reading : Reading α} {phrase : Spelling α} (h : Sound reading phrase) :
    Sound (Reading.many reading) (Spelling.Many phrase) := by
  -- whatever the fuel, what has been read so far is a list of phrases
  have hmany : ∀ fuel text, ∃ tokens, Spelling.Many phrase (readMany reading fuel text).1 tokens
      ∧ Laid tokens text (readMany reading fuel text).2 := by
    intro fuel
    induction fuel with
    | zero => exact fun text => ⟨[], .nil, .nil⟩
    | succ fuel ih =>
      intro text
      rw [readMany]
      cases hread : reading.read text with
      | none => exact ⟨[], .nil, .nil⟩
      | some result =>
        obtain ⟨a, mid⟩ := result
        obtain ⟨first, hphrase, hfirst⟩ := h text a mid hread
        obtain ⟨rest, hitems, hrest⟩ := ih mid
        exact ⟨first ++ rest, .cons hphrase hitems, hfirst.append hrest⟩
  intro text items rest hread
  have heq : readMany reading (text.length + 1) text = (items, rest) := Option.some.inj hread
  have hphrases := hmany (text.length + 1) text
  rw [heq] at hphrases
  exact hphrases

/-- What comes next, if any number of phrases comes first. -/
theorem Begins.many_ahead {starts kinds : List Kind} {phrase : Spelling α}
    (h : Begins starts phrase) {items : List α} {tokens : List Token} {text rest : List Char}
    (hitems : Spelling.Many phrase items tokens) (hlaid : Laid tokens text rest)
    (hrest : Ahead kinds rest) : Ahead (starts ++ kinds) text := by
  cases hitems with
  | nil =>
    cases hlaid
    refine hrest.mono ?_
    intro k hk
    exact List.mem_append_right starts hk
  | cons hphrase hothers =>
    obtain ⟨token, tail, rfl, htoken⟩ := h _ _ hphrase
    refine (hlaid.ahead hrest).mono ?_
    intro k hk
    rw [List.mem_singleton.1 hk]
    exact List.mem_append_left kinds htoken

/-- A repetition reads its phrases to the end, if each may be followed by the
next, and stops there, if the reading fails there. -/
theorem read_many_of {starts follow : List Kind} {reading : Reading α} {phrase : Spelling α}
    (h : Complete (starts ++ follow) reading phrase) (hbegins : Begins starts phrase)
    {items : List α} {tokens : List Token} {text rest : List Char}
    (hitems : Spelling.Many phrase items tokens) (hlaid : Laid tokens text rest)
    (hrest : Ahead follow rest) (hstop : reading.read rest = none) :
    (Reading.many reading).read text = some (items, rest) := by
  -- every phrase takes a character, so that the length of the text is fuel enough
  have hfuel : items.length < text.length + 1 := by
    have hitemsLe := length_le_of_many hbegins hitems
    have htokensLe := hlaid.length_le
    omega
  suffices hmany : ∀ fuel, items.length < fuel → readMany reading fuel text = (items, rest) by
    show some (readMany reading (text.length + 1) text) = _
    rw [hmany _ hfuel]
  clear hfuel
  induction hitems generalizing text with
  | nil =>
    intro fuel hfuel
    cases hlaid
    obtain ⟨fuel, rfl⟩ := Nat.exists_eq_add_one_of_ne_zero (Nat.ne_zero_of_lt hfuel)
    rw [readMany, hstop]
  | cons hphrase hothers ih =>
    intro fuel hfuel
    obtain ⟨fuel, rfl⟩ := Nat.exists_eq_add_one_of_ne_zero (Nat.ne_zero_of_lt hfuel)
    obtain ⟨mid, hfirst, hothersLaid⟩ := hlaid.split
    have hahead := hbegins.many_ahead hothers hothersLaid hrest
    rw [readMany, h _ _ _ _ hphrase hfirst hahead]
    dsimp only
    rw [ih hothersLaid fuel (by simp only [List.length_cons] at hfuel; omega)]

theorem Complete.many {starts opens follow : List Kind} {reading : Reading α}
    {phrase : Spelling α} (h : Complete (starts ++ follow) reading phrase)
    (hbegins : Begins starts phrase) (habsent : Absent opens reading)
    (hdisjoint : ∀ k ∈ follow, k ∉ opens) :
    Complete follow (Reading.many reading) (Spelling.Many phrase) := by
  intro items tokens text rest hitems hlaid hrest
  exact read_many_of h hbegins hitems hlaid hrest (habsent follow rest hrest hdisjoint)

theorem Sound.separated {reading : Reading α} {separator : Reading Unit} {phrase : Spelling α}
    (h : Sound reading phrase) (hcomma : Sound separator (single (fun _ => .mark .comma))) :
    Sound (Reading.separated reading separator) (Spelling.commaList phrase) := by
  intro text items rest hread
  obtain ⟨a, mid, hfirst, hread⟩ := read_bind_eq_some.1 hread
  obtain ⟨others, left, hothers, hread⟩ := read_bind_eq_some.1 hread
  obtain ⟨rfl, rfl⟩ := read_pure_eq_some hread
  obtain ⟨first, hphrase, hlaid⟩ := h _ _ _ hfirst
  obtain ⟨tokens, hmany, hrest⟩ := (hcomma.behind h).many _ _ _ hothers
  exact ⟨first ++ tokens, ⟨a, others, first, tokens, rfl, hphrase, hmany, rfl⟩, hlaid.append hrest⟩

theorem Complete.separated {starts opens follow : List Kind} {reading : Reading α}
    {separator : Reading Unit} {phrase : Spelling α}
    (h : Complete (.mark .comma :: follow) reading phrase) (hbegins : Begins starts phrase)
    (hcomma : Complete starts separator (single (fun _ => .mark .comma)))
    (habsent : Absent opens separator) (hdisjoint : ∀ k ∈ follow, k ∉ opens) :
    Complete follow (Reading.separated reading separator) (Spelling.commaList phrase) := by
  intro items tokens text rest hitems hlaid hrest
  obtain ⟨a, others, first, tail, rfl, hphrase, hothers, rfl⟩ := hitems
  obtain ⟨mid, hfirst, htail⟩ := hlaid.split
  have hbehind : Begins [.mark .comma] (Spelling.behind (.mark .comma) phrase) :=
    begins_behind (List.mem_singleton_self _)
  have hmany := (hcomma.behind h hbegins).many hbehind habsent.bind hdisjoint
  have hahead := hbehind.many_ahead hothers htail hrest
  unfold Reading.separated
  rw [read_bind_of (h a first text mid hphrase hfirst hahead),
    read_bind_of (hmany others tail mid rest hothers htail hrest)]
  rfl

theorem Begins.commaList {starts : List Kind} {phrase : Spelling α} (h : Begins starts phrase) :
    Begins starts (Spelling.commaList phrase) := by
  intro items tokens hex
  obtain ⟨a, others, first, tail, -, hphrase, -, rfl⟩ := hex
  obtain ⟨token, more, rfl, htoken⟩ := h a first hphrase
  exact ⟨token, more ++ tail, rfl, htoken⟩

end PropertyGraph.Query
