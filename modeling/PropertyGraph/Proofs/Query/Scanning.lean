/-
  PropertyGraph.Proofs.Query.Scanning
  ───────────────────────────────────
  **ONE TOKEN AT THE FRONT OF A TEXT.**

  For each kind of token two facts.  What has been scanned is spelled as the
  token demands (`…_eq_some`), and a spelled token is scanned, whatever comes
  after it, as long as that does not go on with it.

  A keyword needs more: it is also tried where another word stands.  So
  `scanKeyword_word` says what becomes of any word.
-/
import PropertyGraph.Proofs.Number.Parts
import PropertyGraph.Proofs.Query.Spelling

namespace PropertyGraph.Query

open PropertyGraph.Text

/-! ## §1. Names. -/

theorem isIdentifierChar_of_start {c : Char} (h : isIdentifierStart c = true) :
    isIdentifierChar c = true := by
  simp only [isIdentifierStart, isIdentifierChar, Char.isAlphanum, Bool.or_eq_true] at h ⊢
  rcases h with h | h
  · exact .inl (.inl h)
  · exact .inr h

theorem IsName.forall_mem {chars : List Char} (h : IsName chars) :
    ∀ c ∈ chars, isIdentifierChar c = true := by
  obtain ⟨c, rest, rfl, hc, hrest⟩ := h
  exact List.forall_mem_cons.2 ⟨isIdentifierChar_of_start hc, hrest⟩

theorem scanIdentifier_eq_some {text rest : List Char} {name : String}
    (h : scanIdentifier text = some (name, rest)) :
    ∃ chars, text = chars ++ rest ∧ IsName chars ∧ name = String.ofList chars
      ∧ Stops isIdentifierChar rest := by
  cases text with
  | nil => cases h
  | cons c tail =>
    rw [scanIdentifier] at h
    by_cases hc : isIdentifierStart c = true
    · rw [if_pos hc] at h
      obtain ⟨rfl, rfl⟩ := Prod.mk.inj (Option.some.inj h)
      refine ⟨c :: tail.takeWhile isIdentifierChar, ?_, ?_, rfl, stops_dropWhile _ _⟩
      · rw [List.cons_append, List.takeWhile_append_dropWhile]
      · exact ⟨c, _, rfl, hc, forall_mem_takeWhile _ _⟩
    · rw [if_neg hc] at h
      cases h

theorem scanIdentifier_name {chars rest : List Char} (h : IsName chars)
    (hrest : Stops isIdentifierChar rest) :
    scanIdentifier (chars ++ rest) = some (String.ofList chars, rest) := by
  obtain ⟨c, tail, rfl, hc, htail⟩ := h
  show scanIdentifier (c :: (tail ++ rest)) = _
  rw [scanIdentifier]
  rw [if_pos hc, takeWhile_run htail hrest, dropWhile_run htail hrest]

theorem scanIdentifier_eq_none {text : List Char} (h : Stops isIdentifierStart text) :
    scanIdentifier text = none := by
  cases text with
  | nil => rfl
  | cons c tail =>
    rw [scanIdentifier]
    rw [if_neg]
    rw [h c tail rfl]
    decide

/-! ## §2. Keywords. -/

/-- Only small letters have another capital. -/
theorem isLower_or_toUpper_eq (c : Char) : c.isLower = true ∨ c.toUpper = c := by
  by_cases hlower : c.isLower = true
  · exact .inl hlower
  · right
    unfold Char.toUpper
    rw [dif_neg]
    intro hrange
    refine hlower ?_
    unfold Char.isLower
    simp only [Bool.and_eq_true, decide_eq_true_eq]
    exact hrange

theorem isIdentifierChar_of_toUpper {c : Char} (h : isIdentifierChar c.toUpper = true) :
    isIdentifierChar c = true := by
  rcases isLower_or_toUpper_eq c with hlower | hsame
  · unfold isIdentifierChar Char.isAlphanum Char.isAlpha
    simp only [hlower, Bool.or_true, Bool.true_or]
  · rw [hsame] at h
    exact h

theorem scanLetters_eq_some {word text rest : List Char} (h : scanLetters word text = some rest) :
    ∃ chars, text = chars ++ rest ∧ chars.map Char.toUpper = word := by
  induction word generalizing text with
  | nil => exact ⟨[], Option.some.inj h, rfl⟩
  | cons letter word ih =>
    cases text with
    | nil => cases h
    | cons c tail =>
      rw [scanLetters] at h
      by_cases hc : c.toUpper = letter
      · rw [if_pos hc] at h
        obtain ⟨chars, rfl, hchars⟩ := ih h
        exact ⟨c :: chars, rfl, by rw [List.map_cons, hc, hchars]⟩
      · rw [if_neg hc] at h
        cases h

theorem scanLetters_append (chars rest : List Char) :
    scanLetters (chars.map Char.toUpper) (chars ++ rest) = some rest := by
  induction chars with
  | nil => rfl
  | cons c tail ih =>
    rw [List.map_cons, List.cons_append]
    rw [scanLetters]
    rw [if_pos rfl, ih]

theorem scanKeyword_eq_some {word : String} {text rest : List Char} {u : Unit}
    (h : scanKeyword word text = some (u, rest)) :
    ∃ chars, text = chars ++ rest ∧ chars.map Char.toUpper = word.toList
      ∧ Stops isIdentifierChar rest := by
  unfold scanKeyword at h
  split at h
  · cases h
  next hletters =>
    obtain ⟨-, rfl⟩ := Prod.mk.inj (Option.some.inj h)
    obtain ⟨chars, htext, hchars⟩ := scanLetters_eq_some hletters
    exact ⟨chars, htext, hchars, stops_nil _⟩
  next c tail hletters =>
    cases hc : isIdentifierChar c with
    | true =>
      rw [if_pos hc] at h
      cases h
    | false =>
      rw [if_neg (by rw [hc]; decide)] at h
      obtain ⟨-, rfl⟩ := Prod.mk.inj (Option.some.inj h)
      obtain ⟨chars, htext, hchars⟩ := scanLetters_eq_some hletters
      exact ⟨chars, htext, hchars, stops_cons hc⟩

theorem scanKeyword_keyword {word : String} {chars rest : List Char}
    (hword : chars.map Char.toUpper = word.toList) (hrest : Stops isIdentifierChar rest) :
    scanKeyword word (chars ++ rest) = some ((), rest) := by
  unfold scanKeyword
  rw [← hword, scanLetters_append]
  cases rest with
  | nil => rfl
  | cons c tail =>
    show (if isIdentifierChar c = true then none else some ((), c :: tail)) = _
    rw [if_neg (by rw [hrest c tail rfl]; decide)]

/-- A keyword is not read from any other word. -/
theorem scanKeyword_eq_none {word : String} {chars rest : List Char}
    (hletters : ∀ c ∈ word.toList, isIdentifierChar c = true)
    (hchars : ∀ c ∈ chars, isIdentifierChar c = true) (hrest : Stops isIdentifierChar rest)
    (hne : chars.map Char.toUpper ≠ word.toList) :
    scanKeyword word (chars ++ rest) = none := by
  cases hscan : scanKeyword word (chars ++ rest) with
  | none => rfl
  | some result =>
    obtain ⟨u, left⟩ := result
    obtain ⟨run, htext, hrun, hleft⟩ := scanKeyword_eq_some hscan
    -- what was read is a whole run of identifier characters, and so is the word
    have hall : ∀ c ∈ run, isIdentifierChar c = true := by
      intro c hc
      refine isIdentifierChar_of_toUpper (hletters _ ?_)
      rw [← hrun]
      exact List.mem_map_of_mem hc
    rw [run_unique hchars hall hrest hleft htext] at hne
    exact absurd hrun hne

/-! ## §3. Numbers. -/

/-- Characters that a number would go on with. -/
def continuesNumber (c : Char) : Bool := c.isDigit || c == '.' || c == 'e' || c == 'E'

theorem readMantissa_eq_some {text whole rest : List Char} {fraction : Option (List Char)}
    (h : readMantissa text = some ((whole, fraction), rest)) :
    text = whole ++ (fractionText fraction ++ rest) ∧ (∀ c ∈ whole, c.isDigit = true)
      ∧ (∀ digits, fraction = some digits → ∀ c ∈ digits, c.isDigit = true)
      ∧ (whole = [] → ∃ c digits, fraction = some (c :: digits)) := by
  have htext : text = text.takeWhile Char.isDigit ++ text.dropWhile Char.isDigit :=
    List.takeWhile_append_dropWhile.symm
  have hwhole := forall_mem_takeWhile Char.isDigit text
  unfold readMantissa at h
  dsimp only at h
  split at h
  next tail hnonempty hdrop =>
    -- digits and a point
    obtain ⟨hparts, rfl⟩ := Prod.mk.inj (Option.some.inj h)
    obtain ⟨rfl, rfl⟩ := Prod.mk.inj hparts
    refine ⟨?_, hwhole, ?_, ?_⟩
    · show text = _ ++ ('.' :: (_ ++ _))
      rw [List.takeWhile_append_dropWhile, ← hdrop]
      exact htext
    · intro digits heq
      cases heq
      exact forall_mem_takeWhile Char.isDigit tail
    · intro hempty
      rw [hempty] at hnonempty
      cases hnonempty
  next tail hnonempty hdrop =>
    -- digits alone
    obtain ⟨hparts, rfl⟩ := Prod.mk.inj (Option.some.inj h)
    obtain ⟨rfl, rfl⟩ := Prod.mk.inj hparts
    refine ⟨htext, hwhole, ?_, ?_⟩
    · intro digits heq
      cases heq
    · intro hempty
      rw [hempty] at hnonempty
      cases hnonempty
  next tail hempty hdrop =>
    -- a point first
    split at h
    · cases h
    next hsome =>
      obtain ⟨hparts, rfl⟩ := Prod.mk.inj (Option.some.inj h)
      obtain ⟨rfl, rfl⟩ := Prod.mk.inj hparts
      refine ⟨?_, fun c hc => absurd hc List.not_mem_nil, ?_, ?_⟩
      · show text = '.' :: (_ ++ _)
        rw [List.takeWhile_append_dropWhile, ← hdrop]
        rw [List.isEmpty_iff.1 hempty] at htext
        exact htext
      · intro digits heq
        cases heq
        exact forall_mem_takeWhile Char.isDigit tail
      · intro _
        cases hdigits : tail.takeWhile Char.isDigit with
        | nil => exact absurd (by rw [hdigits]; rfl) hsome
        | cons c digits => exact ⟨c, digits, rfl⟩
  next => cases h

theorem readPower_eq {text rest : List Char} {power : Option PowerOfTen}
    (h : readPower text = (power, rest)) :
    text = powerText power ++ rest ∧ ∀ p, power = some p →
      (p.mark = 'e' ∨ p.mark = 'E') ∧ p.digits ≠ [] ∧ ∀ c ∈ p.digits, c.isDigit = true := by
  cases text with
  | nil =>
    obtain ⟨rfl, rfl⟩ := Prod.mk.inj h
    exact ⟨rfl, fun p hp => nomatch hp⟩
  | cons c tail =>
    rw [readPower] at h
    by_cases hc : c = 'e' ∨ c = 'E'
    · rw [if_pos hc] at h
      have htail := signMark_text_read tail
      cases hread : SignMark.read tail with
      | mk sign left =>
        rw [hread] at h htail
        dsimp only at h htail
        split at h
        -- a letter without digits is no power of ten
        · obtain ⟨rfl, rfl⟩ := Prod.mk.inj h
          exact ⟨rfl, fun p hp => nomatch hp⟩
        next hsome =>
          obtain ⟨rfl, rfl⟩ := Prod.mk.inj h
          constructor
          · show c :: tail = c :: (sign.text ++ _) ++ _
            rw [List.cons_append, List.append_assoc, List.takeWhile_append_dropWhile, htail]
          · intro p heq
            cases heq
            refine ⟨hc, ?_, forall_mem_takeWhile Char.isDigit left⟩
            intro hempty
            dsimp only at hempty
            exact hsome (by rw [hempty]; rfl)
    · rw [if_neg hc] at h
      obtain ⟨rfl, rfl⟩ := Prod.mk.inj h
      exact ⟨rfl, fun p hp => nomatch hp⟩

/-- A number that was read is a legal one, and it stood there. -/
theorem readNumeral_eq_some {text rest : List Char} {n : Numeral}
    (h : readNumeral text = some (n, rest)) : LegalNumeral n ∧ text = n.text ++ rest := by
  have htext := signMark_text_read text
  unfold readNumeral at h
  cases hsign : SignMark.read text with
  | mk sign left =>
    rw [hsign] at h htext
    dsimp only at h htext
    split at h
    · cases h
    next whole fraction right hmantissa =>
      cases hpower : readPower right with
      | mk power last =>
        rw [hpower] at h
        dsimp only at h
        obtain ⟨rfl, rfl⟩ := Prod.mk.inj (Option.some.inj h)
        obtain ⟨hleft, hwhole, hfraction, hsome⟩ := readMantissa_eq_some hmantissa
        obtain ⟨hright, hlegal⟩ := readPower_eq hpower
        refine ⟨⟨hwhole, hfraction, hsome, hlegal⟩, ?_⟩
        rw [numeral_text, ← htext, hleft, hright]
        simp only [List.append_assoc]

theorem readMantissa_text {whole rest : List Char} {fraction : Option (List Char)}
    (hwhole : ∀ c ∈ whole, c.isDigit = true)
    (hfraction : ∀ digits, fraction = some digits → ∀ c ∈ digits, c.isDigit = true)
    (hsome : whole = [] → ∃ c digits, fraction = some (c :: digits))
    (hrest : Stops (fun c => c.isDigit || c == '.') rest) :
    readMantissa (whole ++ (fractionText fraction ++ rest)) = some ((whole, fraction), rest) := by
  have hdigit : Stops Char.isDigit rest := by
    refine hrest.mono ?_
    intro c hc
    rw [hc, Bool.true_or]
  have hpoint : ∀ tail, rest ≠ '.' :: tail := by
    intro tail hsame
    subst hsame
    exact absurd (hrest _ _ rfl) (by decide)
  cases fraction with
  | none =>
    -- without a point there are digits in front, and no point follows them
    cases whole with
    | nil =>
      obtain ⟨c, digits, habsurd⟩ := hsome rfl
      cases habsurd
    | cons d tail =>
      show readMantissa (d :: tail ++ rest) = _
      unfold readMantissa
      rw [takeWhile_run hwhole hdigit, dropWhile_run hwhole hdigit]
      dsimp only [List.isEmpty_cons]
      split
      next left heq => exact absurd rfl (hpoint left)
      next => rfl
      next hempty => cases hempty
      next hempty _ => cases hempty
  | some digits =>
    have hdigits := hfraction digits rfl
    have hstop : Stops Char.isDigit ('.' :: (digits ++ rest)) := stops_cons (by decide)
    show readMantissa (whole ++ ('.' :: (digits ++ rest))) = _
    unfold readMantissa
    rw [takeWhile_run hwhole hstop, dropWhile_run hwhole hstop]
    cases whole with
    | cons d tail =>
      show some ((_, some _), _) = _
      rw [takeWhile_run hdigits hdigit, dropWhile_run hdigits hdigit]
    | nil =>
      obtain ⟨c, tail, heq⟩ := hsome rfl
      obtain rfl := Option.some.inj heq
      show (if ((c :: tail ++ rest).takeWhile Char.isDigit).isEmpty then none else some _) = _
      rw [takeWhile_run hdigits hdigit, dropWhile_run hdigits hdigit]
      rfl

theorem readPower_none {rest : List Char} (hrest : Stops (fun c => c == 'e' || c == 'E') rest) :
    readPower rest = (none, rest) := by
  cases rest with
  | nil => rfl
  | cons c tail =>
    have hc := hrest c tail rfl
    simp only [Bool.or_eq_false_iff, beq_eq_false_iff_ne] at hc
    rw [readPower, if_neg]
    intro hor
    rcases hor with h | h
    · exact hc.1 h
    · exact hc.2 h

theorem readPower_text {p : PowerOfTen} {rest : List Char}
    (hlegal : (p.mark = 'e' ∨ p.mark = 'E') ∧ p.digits ≠ [] ∧ ∀ c ∈ p.digits, c.isDigit = true)
    (hrest : Stops Char.isDigit rest) :
    readPower (powerText (some p) ++ rest) = (some p, rest) := by
  obtain ⟨mark, sign, digits⟩ := p
  obtain ⟨hmark, hne, hdigits⟩ := hlegal
  show readPower (mark :: (sign.text ++ digits ++ rest)) = _
  rw [readPower, if_pos hmark, List.append_assoc,
    signMark_read_text sign (stops_sign_of_digits hdigits hne)]
  dsimp only
  rw [takeWhile_run hdigits hrest, dropWhile_run hdigits hrest, if_neg]
  intro hempty
  exact hne (List.isEmpty_iff.1 hempty)

/-- A legal number is read where it stands, unless the text goes on with it. -/
theorem readNumeral_text {n : Numeral} {rest : List Char} (h : LegalNumeral n)
    (hrest : Stops continuesNumber rest) : readNumeral (n.text ++ rest) = some (n, rest) := by
  obtain ⟨sign, whole, fraction, power⟩ := n
  have hdigit : Stops Char.isDigit rest := by
    refine hrest.mono ?_
    intro c hc
    simp only [continuesNumber, hc, Bool.true_or]
  -- the power of ten does not go on with the digits before it
  have hpower : readPower (powerText power ++ rest) = (power, rest)
      ∧ Stops (fun c => c.isDigit || c == '.') (powerText power ++ rest) := by
    cases power with
    | none =>
      constructor
      · refine readPower_none (hrest.mono ?_)
        intro c hc
        rw [Bool.or_eq_true] at hc
        simp only [continuesNumber, Bool.or_eq_true]
        rcases hc with hc | hc
        · exact .inl (.inr hc)
        · exact .inr hc
      · refine hrest.mono ?_
        intro c hc
        rw [Bool.or_eq_true] at hc
        simp only [continuesNumber, Bool.or_eq_true]
        exact .inl (.inl hc)
    | some p =>
      have hlegal := h.power p rfl
      refine ⟨readPower_text hlegal hdigit, stops_cons ?_⟩
      rcases hlegal.1 with hmark | hmark
      · rw [hmark]; decide
      · rw [hmark]; decide
  -- the first character is no sign, unless it is the sign of the number
  have hsign : Stops (fun c => c == '+' || c == '-')
      (whole ++ (fractionText fraction ++ (powerText power ++ rest))) := by
    cases whole with
    | cons d tail => exact stops_sign_of_digits h.whole (fun hnil => nomatch hnil)
    | nil =>
      obtain ⟨c, digits, hfraction⟩ := h.some_digit rfl
      dsimp only at hfraction
      rw [hfraction]
      exact stops_cons (by decide)
  rw [numeral_text]
  simp only [List.append_assoc]
  unfold readNumeral
  rw [signMark_read_text sign hsign]
  dsimp only
  rw [readMantissa_text h.whole h.fraction h.some_digit hpower.2]
  dsimp only
  rw [hpower.1]

/-- A number begins with a digit, a sign or a point. -/
theorem numeral_begins {n : Numeral} (h : LegalNumeral n) :
    ∃ c tail, n.text = c :: tail ∧ (c.isDigit = true ∨ c = '+' ∨ c = '-' ∨ c = '.') := by
  rw [numeral_text]
  cases n.sign with
  | plus => exact ⟨'+', _, rfl, .inr (.inl rfl)⟩
  | minus => exact ⟨'-', _, rfl, .inr (.inr (.inl rfl))⟩
  | absent =>
    cases hwhole : n.whole with
    | cons d digits =>
      refine ⟨d, _, rfl, .inl (h.whole d ?_)⟩
      rw [hwhole]
      exact List.mem_cons_self
    | nil =>
      obtain ⟨d, digits, hfraction⟩ := h.some_digit hwhole
      rw [hfraction]
      exact ⟨'.', _, rfl, .inr (.inr (.inr rfl))⟩

/-! ## §4. Strings. -/

theorem unescape?_eq_some_iff {letter c : Char} :
    unescape? letter = some c ↔ (letter, c) ∈ shortEscapes := by
  constructor
  · intro h
    unfold unescape? at h
    split at h
    all_goals
      first
      | (obtain rfl := Option.some.inj h; decide)
      | cases h
  · intro h
    simp only [shortEscapes, List.mem_cons, List.not_mem_nil, or_false, Prod.mk.injEq] at h
    rcases h with ⟨rfl, rfl⟩ | ⟨rfl, rfl⟩ | ⟨rfl, rfl⟩ | ⟨rfl, rfl⟩ | ⟨rfl, rfl⟩ | ⟨rfl, rfl⟩
      | ⟨rfl, rfl⟩ | ⟨rfl, rfl⟩
    all_goals rfl

theorem isShortEscape_iff {letter : Char} :
    isShortEscape letter = true ↔ ∃ c, (letter, c) ∈ shortEscapes := by
  unfold isShortEscape
  rw [Option.isSome_iff_exists]
  simp only [unescape?_eq_some_iff]

/-- A legal piece is read where it stands. -/
theorem readPieces_piece {piece : StringPiece} (h : piece.Legal) (text : List Char) :
    readPieces (piece.text ++ text)
      = (readPieces text).map (fun result => (piece :: result.1, result.2)) := by
  cases piece with
  | plain c =>
    show readPieces (c :: text) = _
    rw [readPieces, if_neg h.2]
    · exact h.1
    · intro a b e d tail heq
      subst heq
      exact absurd rfl h.2
    · intro letter tail heq
      subst heq
      exact absurd rfl h.2
  | short letter =>
    have hletter : isShortEscape letter = true := isShortEscape_iff.2 h
    show readPieces ('\\' :: letter :: text) = _
    -- the letter u begins the longer escape only
    rw [readPieces, if_pos hletter]
    intro a b c d tail heq
    subst heq
    exact absurd hletter (by decide)
  | unicode a b c d =>
    show readPieces ('\\' :: 'u' :: a :: b :: c :: d :: text) = _
    rw [readPieces, if_pos]
    rw [h.1, h.2.1, h.2.2.1, h.2.2.2]
    decide

theorem readPieces_text {pieces : List StringPiece} (h : ∀ piece ∈ pieces, piece.Legal)
    (rest : List Char) :
    readPieces (pieces.flatMap StringPiece.text ++ '"' :: rest) = some (pieces, rest) := by
  induction pieces with
  | nil =>
    show readPieces ('"' :: rest) = _
    rw [readPieces]
  | cons piece tail ih =>
    obtain ⟨hpiece, htail⟩ := List.forall_mem_cons.1 h
    rw [List.flatMap_cons, List.append_assoc, readPieces_piece hpiece, ih htail]
    rfl

theorem readPieces_eq_some {text rest : List Char} {pieces : List StringPiece}
    (h : readPieces text = some (pieces, rest)) :
    (∀ piece ∈ pieces, piece.Legal) ∧ text = pieces.flatMap StringPiece.text ++ '"' :: rest := by
  fun_induction readPieces text generalizing pieces with
  | case1 text =>
    obtain ⟨rfl, rfl⟩ := Prod.mk.inj (Option.some.inj h)
    exact ⟨fun piece hpiece => absurd hpiece List.not_mem_nil, rfl⟩
  | case2 a b c d text hhex ih =>
    obtain ⟨⟨pieces, rest⟩, hread, hresult⟩ := Option.map_eq_some_iff.1 h
    obtain ⟨rfl, rfl⟩ := Prod.mk.inj hresult
    obtain ⟨hlegal, rfl⟩ := ih hread
    simp only [Bool.and_eq_true] at hhex
    exact ⟨List.forall_mem_cons.2 ⟨⟨hhex.1.1.1, hhex.1.1.2, hhex.1.2, hhex.2⟩, hlegal⟩, rfl⟩
  | case3 => cases h
  | case4 letter text _ hletter ih =>
    obtain ⟨⟨pieces, rest⟩, hread, hresult⟩ := Option.map_eq_some_iff.1 h
    obtain ⟨rfl, rfl⟩ := Prod.mk.inj hresult
    obtain ⟨hlegal, rfl⟩ := ih hread
    exact ⟨List.forall_mem_cons.2 ⟨isShortEscape_iff.1 hletter, hlegal⟩, rfl⟩
  | case5 => cases h
  | case6 => cases h
  | case7 c text hquote _ _ hslash ih =>
    obtain ⟨⟨pieces, rest⟩, hread, hresult⟩ := Option.map_eq_some_iff.1 h
    obtain ⟨rfl, rfl⟩ := Prod.mk.inj hresult
    obtain ⟨hlegal, rfl⟩ := ih hread
    exact ⟨List.forall_mem_cons.2 ⟨⟨hquote, hslash⟩, hlegal⟩, rfl⟩
  | case8 => cases h

theorem readQuoted_eq_some {text rest : List Char} {pieces : List StringPiece}
    (h : readQuoted text = some (pieces, rest)) :
    ∃ chars, (SpelledLiteral.string pieces).SpelledBy chars ∧ text = chars ++ rest := by
  unfold readQuoted at h
  split at h
  next tail =>
    obtain ⟨hlegal, rfl⟩ := readPieces_eq_some h
    refine ⟨_, ⟨hlegal, rfl⟩, ?_⟩
    rw [List.cons_append, List.append_assoc]
    rfl
  next => cases h

theorem readQuoted_string {pieces : List StringPiece} {chars : List Char}
    (h : (SpelledLiteral.string pieces).SpelledBy chars) (rest : List Char) :
    readQuoted (chars ++ rest) = some (pieces, rest) := by
  obtain ⟨hlegal, rfl⟩ := h
  rw [List.cons_append, List.append_assoc]
  exact readPieces_text hlegal rest

theorem readQuoted_eq_none {text : List Char} (h : Stops (· == '"') text) :
    readQuoted text = none := by
  unfold readQuoted
  split
  next tail => exact absurd (h _ _ rfl) (by decide)
  next => rfl

end PropertyGraph.Query
