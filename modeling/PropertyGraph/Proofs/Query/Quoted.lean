/-
  PropertyGraph.Proofs.Query.Quoted
  ─────────────────────────────────
  **EVERY STRING IN EVERY SPELLING.**

  Inside quotes each character may be spelled in several ways, and each one by
  itself (`SpellsChar`):

      itself       all but the quote and the backslash
      one letter   \" \\ \/ \b \f \n \r \t
      its number   \u and four hexadecimal digits, below 2^16

  The literal ends at the quote that no backslash takes, and stands for the
  string that is spelled.  A second scan of what stands between the quotes finds
  the same string (`unescape_text`): it takes the four characters behind `\u` as
  they come, where the first scan has made sure that they are digits.
-/
import Mathlib.Tactic.IntervalCases
import PropertyGraph.Proofs.Query.Valueless

namespace PropertyGraph.Query

open PropertyGraph.Text

/-! ## §1. Spellings. -/

/-- A hexadecimal digit of either case and its value. -/
def IsHexOf (n : Nat) (c : Char) : Prop :=
  "0123456789abcdef".toList[n]? = some c ∨ "0123456789ABCDEF".toList[n]? = some c

/-- The four hexadecimal digits of a number, which is below 2^16. -/
structure HexDigits (n : Nat) (a b c d : Char) : Prop where
  first : IsHexOf (n / 4096) a
  second : IsHexOf (n / 256 % 16) b
  third : IsHexOf (n / 16 % 16) c
  fourth : IsHexOf (n % 16) d

/-- How a character may be spelled inside quotes. -/
inductive SpellsChar : Char → List Char → Prop where
  | itself {c : Char} (quote : c ≠ '"') (slash : c ≠ '\\') : SpellsChar c [c]
  | letter {c letter : Char} (escape : (letter, c) ∈ shortEscapes) : SpellsChar c ['\\', letter]
  | number {x a b c d : Char} (digits : HexDigits x.toNat a b c d) :
      SpellsChar x ['\\', 'u', a, b, c, d]

/-- How a string may be spelled: each of its characters in any way. -/
inductive SpellsInside : List Char → List Char → Prop where
  | nil : SpellsInside [] []
  | cons {c : Char} {cs first rest : List Char} (head : SpellsChar c first)
      (tail : SpellsInside cs rest) : SpellsInside (c :: cs) (first ++ rest)

/-! ## §2. Numbers of characters. -/

theorem hexValue?_eq_some_iff {c : Char} {n : Nat} : hexValue? c = some n ↔ IsHexOf n c := by
  constructor
  · intro h
    have hlt := hexValue?_lt h
    have hcode : c.toNat = n + 48 ∧ n < 10 ∨ c.toNat = n + 87 ∧ 10 ≤ n
        ∨ c.toNat = n + 55 ∧ 10 ≤ n := by
      unfold hexValue? at h
      split at h
      next hc =>
        have hlow : 48 ≤ c.toNat := hc.1
        have hhigh : c.toNat ≤ 57 := hc.2
        have heq := Option.some.inj h
        omega
      next =>
        split at h
        next hc =>
          have hlow : 97 ≤ c.toNat := hc.1
          have heq := Option.some.inj h
          omega
        next =>
          split at h
          next hc =>
            have hlow : 65 ≤ c.toNat := hc.1
            have heq := Option.some.inj h
            omega
          next => cases h
    -- so the character is found by its code
    have hchar : c = Char.ofNat c.toNat := (Char.ofNat_toNat c).symm
    rcases hcode with ⟨hcode, hsmall⟩ | ⟨hcode, hlarge⟩ | ⟨hcode, hlarge⟩
    all_goals
      rw [hchar, hcode]
      unfold IsHexOf
      interval_cases n <;> decide
  · intro h
    have hlt : n < 16 := by
      rcases h with h | h
      all_goals exact (List.getElem?_eq_some_iff.1 h).1
    unfold IsHexOf at h
    interval_cases n
    all_goals
      rcases h with h | h
      all_goals
        obtain rfl := Option.some.inj h
        rfl

theorem hexValue4?_eq_some_iff {a b c d : Char} {n : Nat} :
    hexValue4? a b c d = some n ↔ HexDigits n a b c d := by
  unfold hexValue4?
  simp only [Option.bind_eq_bind, Option.bind_eq_some_iff]
  constructor
  · rintro ⟨x, hx, y, hy, z, hz, w, hw, hn⟩
    obtain rfl := Option.some.inj hn
    have h₁ := hexValue?_lt hx
    have h₂ := hexValue?_lt hy
    have h₃ := hexValue?_lt hz
    have h₄ := hexValue?_lt hw
    constructor
    all_goals apply hexValue?_eq_some_iff.1
    · rwa [show (((x * 16 + y) * 16 + z) * 16 + w) / 4096 = x by omega]
    · rwa [show (((x * 16 + y) * 16 + z) * 16 + w) / 256 % 16 = y by omega]
    · rwa [show (((x * 16 + y) * 16 + z) * 16 + w) / 16 % 16 = z by omega]
    · rwa [show (((x * 16 + y) * 16 + z) * 16 + w) % 16 = w by omega]
  · intro h
    refine ⟨_, hexValue?_eq_some_iff.2 h.first, _, hexValue?_eq_some_iff.2 h.second, _,
      hexValue?_eq_some_iff.2 h.third, _, hexValue?_eq_some_iff.2 h.fourth, congrArg some ?_⟩
    omega

/-! ## §3. Pieces. -/

/-- A spelling of a character is a piece that stands for it. -/
theorem spellsChar_iff {x : Char} {text : List Char} :
    SpellsChar x text ↔ ∃ piece : StringPiece, piece.Legal ∧ piece.Denotes x ∧ text = piece.text := by
  constructor
  · intro h
    cases h with
    | itself quote slash => exact ⟨.plain x, ⟨quote, slash⟩, rfl, rfl⟩
    | letter escape => exact ⟨.short _, ⟨x, escape⟩, escape, rfl⟩
    | number digits =>
      refine ⟨.unicode _ _ _ _, ⟨?_, ?_, ?_, ?_⟩, hexValue4?_eq_some_iff.2 digits, rfl⟩
      · exact Option.isSome_of_eq_some (hexValue?_eq_some_iff.2 digits.first)
      · exact Option.isSome_of_eq_some (hexValue?_eq_some_iff.2 digits.second)
      · exact Option.isSome_of_eq_some (hexValue?_eq_some_iff.2 digits.third)
      · exact Option.isSome_of_eq_some (hexValue?_eq_some_iff.2 digits.fourth)
  · rintro ⟨piece, hlegal, hdenotes, rfl⟩
    cases piece with
    | plain c =>
      obtain rfl : x = c := hdenotes
      exact .itself hlegal.1 hlegal.2
    | short letter => exact .letter hdenotes
    | unicode a b c d => exact .number (hexValue4?_eq_some_iff.1 hdenotes)

/-- A spelling of a string is made of pieces, one for each character. -/
theorem spellsInside_iff {cs inside : List Char} :
    SpellsInside cs inside ↔ ∃ pieces : List StringPiece, (∀ piece ∈ pieces, piece.Legal)
      ∧ List.Forall₂ StringPiece.Denotes pieces cs ∧ inside = pieces.flatMap StringPiece.text := by
  constructor
  · intro h
    induction h with
    | nil => exact ⟨[], fun _ hmem => absurd hmem List.not_mem_nil, .nil, rfl⟩
    | cons head _ ih =>
      obtain ⟨piece, hlegal, hdenotes, rfl⟩ := spellsChar_iff.1 head
      obtain ⟨pieces, hall, hpieces, rfl⟩ := ih
      exact ⟨piece :: pieces, List.forall_mem_cons.2 ⟨hlegal, hall⟩, .cons hdenotes hpieces, rfl⟩
  · rintro ⟨pieces, hall, hpieces, rfl⟩
    induction hpieces with
    | nil => exact .nil
    | cons hdenotes _ ih =>
      obtain ⟨hlegal, hrest⟩ := List.forall_mem_cons.1 hall
      exact .cons (spellsChar_iff.2 ⟨_, hlegal, hdenotes, rfl⟩) (ih hrest)

/-- Every string has a spelling. -/
theorem exists_spellsInside (cs : List Char) : ∃ inside, SpellsInside cs inside := by
  induction cs with
  | nil => exact ⟨[], .nil⟩
  | cons c cs ih =>
    obtain ⟨rest, hrest⟩ := ih
    by_cases hquote : c = '"'
    · subst hquote
      exact ⟨_, .cons (.letter (show ('"', '"') ∈ shortEscapes by decide)) hrest⟩
    · by_cases hslash : c = '\\'
      · subst hslash
        exact ⟨_, .cons (.letter (show ('\\', '\\') ∈ shortEscapes by decide)) hrest⟩
      · exact ⟨_, .cons (.itself hquote hslash) hrest⟩

/-! ## §4. The second scan. -/

/-- A number in hexadecimal digits, with a plus sign in front or without. -/
def hexNumber? : List Char → Option Nat
  | [] => none
  | '+' :: digit :: digits => readDigits (digit :: digits)
  | digits => readDigits digits
where
  /-- The digits from the highest to the lowest. -/
  readDigits (digits : List Char) : Option Nat :=
    digits.foldlM (fun n digit => (hexValue? digit).map (16 * n + ·)) 0

/-- The characters that a text between quotes stands for.  Behind `\u` stand the
next four characters, whatever they are. -/
def unescape : List Char → Except InvalidLiteral (List Char)
  | [] => .ok []
  | '\\' :: 'u' :: text =>
    match (hexNumber? (text.take 4)).filter (fun n => !isSurrogate n) with
    | none => .error ⟨String.ofList ('\\' :: 'u' :: text.take 4)⟩
    | some n => do
      let cs ← unescape (text.drop 4)
      return Char.ofNat n :: cs
  | '\\' :: letter :: text =>
    match unescape? letter with
    | none => .error ⟨String.ofList ['\\', letter]⟩
    | some c => do
      let cs ← unescape text
      return c :: cs
  | ['\\'] => .error ⟨String.ofList ['\\']⟩
  | c :: text => do
    let cs ← unescape text
    return c :: cs
termination_by text => text.length
decreasing_by
  all_goals simp only [List.length_cons, List.length_drop]
  all_goals omega

/-- Four digits are read as such. -/
theorem hexNumber?_digits {a b c d : Char} (h : (StringPiece.unicode a b c d).Legal) :
    hexNumber? [a, b, c, d] = hexValue4? a b c d := by
  obtain ⟨x, y, z, w, hx, hy, hz, hw⟩ := exists_hexValues h
  -- a plus sign is no digit
  have hplus : a ≠ '+' := by
    rintro rfl
    cases hx
  have hread : hexNumber? [a, b, c, d] = hexNumber?.readDigits [a, b, c, d] := by
    unfold hexNumber?
    split
    next => contradiction
    next heq => exact absurd (List.cons.inj heq).1 hplus
    next => rfl
  rw [hread, hexNumber?.readDigits, hexValue4?]
  simp only [List.foldlM_cons, List.foldlM_nil, hx, hy, hz, hw, Option.map_some,
    Option.bind_eq_bind, Option.bind_some, Option.pure_def, Option.some_inj]
  omega

/-- A legal piece is taken off as a whole. -/
theorem unescape_piece {piece : StringPiece} (h : piece.Legal) (text : List Char) :
    unescape (piece.text ++ text) = do
      let c ← piece.value
      let cs ← unescape text
      return c :: cs := by
  cases piece with
  | plain c =>
    show unescape (c :: text) = _
    rw [unescape]
    · rfl
    -- none of the patterns with a backslash
    · exact fun _ hslash _ => h.2 hslash
    · exact fun _ _ hslash _ => h.2 hslash
    · exact fun hslash _ => h.2 hslash
  | short letter =>
    obtain ⟨c, hc⟩ := h
    have hvalue : unescape? letter = some c := unescape?_eq_some_iff.2 hc
    show unescape ('\\' :: letter :: text) = _
    rw [unescape, StringPiece.value, hvalue]
    · rfl
    · rintro rfl
      cases hvalue
  | unicode a b c d =>
    show unescape ('\\' :: 'u' :: a :: b :: c :: d :: text) = _
    rw [unescape, StringPiece.value]
    show (match (hexNumber? [a, b, c, d]).filter (fun n => !isSurrogate n) with
      | none => _
      | some n => _) = _
    rw [hexNumber?_digits h]
    obtain ⟨code, hcode⟩ := exists_hexValue4? h
    rw [hcode]
    cases hsurrogate : isSurrogate code <;> simp [Option.filter, hsurrogate] <;> rfl

/-- **Both scans agree** on every text that the first one accepts. -/
theorem unescape_text {pieces : List StringPiece} (h : ∀ piece ∈ pieces, piece.Legal) :
    unescape (pieces.flatMap StringPiece.text) = piecesValue pieces := by
  induction pieces with
  | nil => rw [List.flatMap_nil, unescape, piecesValue]
  | cons piece rest ih =>
    obtain ⟨hpiece, hrest⟩ := List.forall_mem_cons.1 h
    rw [List.flatMap_cons, unescape_piece hpiece, ih hrest, piecesValue]

/-! ## §5. Quoted strings. -/

/-- The string that the pieces stand for is the value of their literal. -/
theorem string_value_of_denotes {pieces : List StringPiece} {s : String}
    (h : List.Forall₂ StringPiece.Denotes pieces s.toList) :
    (SpelledLiteral.string pieces).value = .ok (.str s) :=
  (literal_value_eq_ok_iff (.string pieces) (.str s)).2 ⟨s, rfl, h⟩

/-- A string without the escape of a surrogate has a value. -/
theorem exists_denotes_of_no_surrogate {pieces : List StringPiece}
    (hlegal : ∀ piece ∈ pieces, piece.Legal)
    (h : ∀ piece ∈ pieces, ¬ (LiteralPart.character piece).Valueless) :
    ∃ s : String, List.Forall₂ StringPiece.Denotes pieces s.toList := by
  have hreport := reports_literal (.string pieces) (fun part hpart => by
    obtain ⟨piece, hpiece, rfl⟩ := List.mem_map.1 hpart
    exact hlegal piece hpiece)
  have hnone : (SpelledLiteral.string pieces).parts.find? (fun part => part.Valueless) = none := by
    rw [List.find?_eq_none]
    intro part hpart
    obtain ⟨piece, hpiece, rfl⟩ := List.mem_map.1 hpart
    simpa using h piece hpiece
  rw [hnone] at hreport
  obtain ⟨v, hv⟩ := hreport
  obtain ⟨s, -, hs⟩ := (literal_value_eq_ok_iff (.string pieces) v).1 hv
  exact ⟨s, hs⟩

/-- **A quoted literal denotes every string, in every spelling.**  Each string
has a spelling, and each of its spellings, in quotes and before any rest, is read
up to the closing quote as one literal whose value is the string; the second scan
finds the string as well.  The other way round, what is read as a literal ends at
a quote, both scans agree on what stands before, and without the escape of a
surrogate that is a spelling of the value. -/
theorem quoted_every_spelling (s : String) (inside text rest : List Char)
    (pieces : List StringPiece) :
    (∃ spelling, SpellsInside s.toList spelling)
      ∧ (SpellsInside s.toList inside →
        ∃ read, readQuoted ('"' :: (inside ++ '"' :: rest)) = some (read, rest)
          ∧ (SpelledLiteral.string read).value = .ok (.str s)
          ∧ unescape inside = .ok s.toList)
      ∧ (readQuoted text = some (pieces, rest) →
        ∃ between, text = '"' :: (between ++ '"' :: rest)
          ∧ unescape between = piecesValue pieces
          ∧ ((∀ piece ∈ pieces, ¬ (LiteralPart.character piece).Valueless) →
            ∃ t : String, (SpelledLiteral.string pieces).value = .ok (.str t)
              ∧ unescape between = .ok t.toList ∧ SpellsInside t.toList between)) := by
  refine ⟨exists_spellsInside s.toList, fun h => ?_, fun h => ?_⟩
  · obtain ⟨read, hlegal, hdenotes, rfl⟩ := spellsInside_iff.1 h
    refine ⟨read, readPieces_text hlegal rest, string_value_of_denotes hdenotes, ?_⟩
    rw [unescape_text hlegal]
    exact piecesValue_eq_ok_iff.2 hdenotes
  · obtain ⟨chars, ⟨hlegal, rfl⟩, rfl⟩ := readQuoted_eq_some h
    refine ⟨pieces.flatMap StringPiece.text, ?_, unescape_text hlegal, fun hnone => ?_⟩
    · rw [List.cons_append, List.append_assoc, List.singleton_append]
    · obtain ⟨t, hdenotes⟩ := exists_denotes_of_no_surrogate hlegal hnone
      refine ⟨t, string_value_of_denotes hdenotes, ?_,
        spellsInside_iff.2 ⟨pieces, hlegal, hdenotes, rfl⟩⟩
      rw [unescape_text hlegal]
      exact piecesValue_eq_ok_iff.2 hdenotes

/-- A quote and a backslash by their letters, and a letter by its number. -/
def mixedInside : List Char := ['\\', '"', 'e', '\\', '\\', '\\', 'u', '0', '0', 'e', 'E']

/-- The pieces of which it is made. -/
def mixedPieces : List StringPiece :=
  [.short '"', .plain 'e', .short '\\', .unicode '0' '0' 'e' 'E']

theorem quoted_every_spelling_mixedInside :
    (SpellsInside "\"e\\î".toList mixedInside ∧ unescape mixedInside = .ok "\"e\\î".toList)
      ∧ readQuoted ('"' :: (mixedInside ++ '"' :: [')'])) = some (mixedPieces, [')'])
      ∧ ∃ between t, mixedInside ++ '"' :: [')'] = between ++ '"' :: [')']
        ∧ unescape between = .ok t ∧ SpellsInside t between := by
  have hspells : SpellsInside "\"e\\î".toList mixedInside := by
    refine .cons (.letter ?_) (.cons (.itself ?_ ?_) (.cons (.letter ?_)
      (.cons (.number ⟨.inl rfl, .inl rfl, .inl rfl, .inr rfl⟩) .nil)))
    all_goals decide
  have hread : readQuoted ('"' :: (mixedInside ++ '"' :: [')'])) = some (mixedPieces, [')']) := by
    decide +kernel
  have hlaws := quoted_every_spelling "\"e\\î" mixedInside
    ('"' :: (mixedInside ++ '"' :: [')'])) [')'] mixedPieces
  obtain ⟨-, -, -, hscan⟩ := hlaws.2.1 hspells
  obtain ⟨between, htext, -, hvalue⟩ := hlaws.2.2 hread
  obtain ⟨t, -, hbetween, hspelling⟩ := hvalue (by decide)
  exact ⟨⟨hspells, hscan⟩, hread, between, t.toList, (List.cons.inj htext).2, hbetween, hspelling⟩

end PropertyGraph.Query
