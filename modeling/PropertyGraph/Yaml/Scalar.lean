/-
  PropertyGraph.Yaml.Scalar
  ─────────────────────────
  **SCALARS OF A YAML TEXT.**

  A scalar is plain, in single or double quotes, or a block of its own that
  is kept line by line (literal) or folded.  Where plain and quoted scalars
  go on over several lines they are folded: blanks around a line end vanish,
  a single line end becomes a blank, and of several the first vanishes
  (`Gap.text`).

  Every reader here gives the characters of the scalar and the place after
  it, or nothing if the text is no YAML.
-/
import PropertyGraph.Text.Escape
import PropertyGraph.Yaml.Place

namespace PropertyGraph.Yaml

/-- How a scalar is written. -/
inductive ScalarStyle where
  | plain
  | singleQuoted
  | doubleQuoted
  | literal
  | folded
  deriving DecidableEq

/-! ## §1. Gaps. -/

/-- Blanks and line ends between two words of a scalar. -/
structure Gap where
  /-- Blanks, as long as no line end comes. -/
  blanks : List Char
  /-- Has a line ended? -/
  broken : Bool
  /-- The first line end. -/
  first : List Char
  /-- The line ends after the first. -/
  further : List Char

namespace Gap

/-- Nothing between two words. -/
def empty : Gap := ⟨[], false, [], []⟩

/-- What is left of a gap once it is folded. -/
def text (gap : Gap) : List Char :=
  if gap.broken then
    if gap.first.head? = some '\n' then
      if gap.further.isEmpty then [' '] else gap.further
    else gap.first ++ gap.further
  else gap.blanks

/-- Reads on in a gap.  On a new line no tab may stand before the column
`margin`. -/
def read (margin : Nat) : Nat → Place → Gap → Option (Gap × Place)
  | 0, _, _ => none
  | fuel + 1, place, gap =>
    match place.rest with
    | [] => some (gap, place)
    | c :: _ =>
      if isBlank c then
        if ¬ gap.broken then
          read margin fuel (place.skip 1) { gap with blanks := gap.blanks ++ [c] }
        else if c = '\t' ∧ place.column < margin then none
        else read margin fuel (place.skip 1) gap
      else if isBreak c then
        let (lineEnd, next) := place.readBreak
        if gap.broken then read margin fuel next { gap with further := gap.further ++ lineEnd }
        else read margin fuel next ⟨[], true, lineEnd, []⟩
      else some (gap, place)

end Gap

/-! ## §2. Quoted scalars. -/

/-- The characters of one-letter escapes. -/
def unescape? : Char → Option Char
  | '0' => some '\x00'
  | 'a' => some '\x07'
  | '\t' => some '\t'
  | 'v' => some '\x0b'
  | 'e' => some '\x1b'
  | ' ' => some ' '
  | '_' => some '\u00a0'
  | 'N' => some '\u0085'
  | 'L' => some '\u2028'
  | 'P' => some '\u2029'
  | c => Text.unescape? c

/-- How many hexadecimal digits follow the letter of an escape. -/
def escapeDigits? : Char → Option Nat
  | 'x' => some 2
  | 'u' => some 4
  | 'U' => some 8
  | _ => none

/-- The value of hexadecimal digits. -/
def hexValue? (digits : List Char) : Option Nat :=
  digits.foldlM (fun value digit => (Text.hexValue? digit).map (value * 16 + ·)) 0

/-- The character of a code point, if it is one. -/
def charOfCode? (code : Nat) : Option Char :=
  if h : code.isValidChar then some (Char.ofNatAux code h) else none

/-- The character of an escape, after the backslash. -/
def readEscape (place : Place) : Option (Char × Place) :=
  match place.rest with
  | [] => none
  | letter :: rest =>
    match escapeDigits? letter with
    | some count =>
      if (rest.take count).length = count then do
        let c ← charOfCode? (← hexValue? (rest.take count))
        return (c, place.skip (count + 1))
      else none
    | none => (unescape? letter).map (fun c => (c, place.skip 1))

/-- Characters of a quoted scalar up to a gap or the closing quote.  The flag
tells whether they end in an escaped line end, which leaves nothing behind. -/
def readQuotedWord (quote : Char) : Nat → Place → Option (List Char × Bool × Place)
  | 0, _ => none
  | fuel + 1, place =>
    let single := quote == '\''
    let andOn (c : Char) (next : Place) :=
      (readQuotedWord quote fuel next).map (fun (cs, broken, place) => (c :: cs, broken, place))
    match place.rest with
    | [] => some ([], false, place)
    | c :: rest =>
      if isBlank c || isBreak c then some ([], false, place)
      else if c == quote then
        -- a single quote inside single quotes is written twice
        if single && rest.head? = some quote then andOn quote (place.skip 2)
        else some ([], false, place)
      else if !single && c == '\\' then
        if rest.head?.any isBreak then some ([], true, (place.skip 1).readBreak.2)
        else (readEscape (place.skip 1)).bind (fun (c, next) => andOn c next)
      else andOn c (place.skip 1)

/-- A quoted scalar whose opening quote has been read. -/
def readQuoted (quote : Char) : Nat → Place → Option (List Char × Place)
  | 0, _ => none
  | fuel + 1, place =>
    if place.atDocumentMark || place.rest.isEmpty then none
    else do
      let (word, broken, place) ← readQuotedWord quote (place.rest.length + 1) place
      if place.rest.head? = some quote then return (word, place.skip 1)
      else
        let (gap, place) ← Gap.read 0 (place.rest.length + 1) place { Gap.empty with broken }
        let (more, place) ← readQuoted quote fuel place
        return (word ++ gap.text ++ more, place)

/-! ## §3. Plain scalars. -/

/-- Characters of a plain scalar up to a gap or to a character that ends it.
Inside brackets a colon before a bracket, comma or question mark is an error. -/
def readPlainWord (inFlow : Bool) : List Char → Option (List Char)
  | [] => some []
  | c :: rest =>
    if isBlank c || isBreak c then some []
    else if inFlow && c == ':' && rest.head?.any (fun d => d == '?' || isBracketOrComma d) then none
    else if (c == ':' && atGap rest) || (inFlow && isBracketOrComma c) then some []
    else (readPlainWord inFlow rest).map (c :: ·)

/-- A plain scalar from its second word on, after `gap`.  On new lines it has
to stand at the column `margin` or to the right of it.  The flag tells
whether a line end follows it. -/
def readPlain (inFlow : Bool) (margin : Nat) :
    Nat → Place → Gap → Option (List Char × Bool × Place)
  | 0, _, _ => none
  | fuel + 1, place, gap =>
    if place.atDocumentMark || place.rest.head? = some '#' then some ([], gap.broken, place)
    else do
      let word ← readPlainWord inFlow place.rest
      let place := place.skip word.length
      -- a gap without a word after it is no part of the scalar
      let text := if word.isEmpty then [] else gap.text ++ word
      if place.rest.isEmpty || !atGap place.rest then
        return (text, word.isEmpty && gap.broken, place)
      else
        let (gap, place) ← Gap.read margin (place.rest.length + 1) place .empty
        if !inFlow && place.column < margin then return (text, gap.broken, place)
        else
          let (more, broken, place) ← readPlain inFlow margin fuel place gap
          return (text ++ more, broken, place)

/-! ## §4. Block scalars. -/

/-- What becomes of the line ends at the end of a block. -/
inductive Chomping where
  | strip
  | clip
  | keep
  deriving DecidableEq

/-- The indicator of chomping, if there is one. -/
def readChomping (place : Place) : Option (Chomping × Place) :=
  match place.rest with
  | '+' :: _ => some (.keep, place.skip 1)
  | '-' :: _ => some (.strip, place.skip 1)
  | _ => none

/-- The indicator of indentation: a digit other than zero.  Nothing if there
is no digit. -/
def readIndentation (place : Place) : Option (Option Nat × Place) :=
  match place.rest with
  | c :: _ =>
    if c = '0' then none
    else if c.isDigit then some (some (c.toNat - '0'.toNat), place.skip 1)
    else some (none, place)
  | [] => some (none, place)

/-- Both indicators in either order. -/
def readBlockHeader (place : Place) : Option (Chomping × Option Nat × Place) :=
  match readChomping place with
  | some (chomping, place) => do
    let (indentation, place) ← readIndentation place
    return (chomping, indentation, place)
  | none => do
    match ← readIndentation place with
    | (some n, place) =>
      match readChomping place with
      | some (chomping, place) => return (chomping, some n, place)
      | none => return (.clip, some n, place)
    | (none, place) => return (.clip, none, place)

/-- Reads over empty lines of a block.  `indentation` is the column of the
block, once it is known; `deepest` is the deepest column so far. -/
def readEmptyLines (indentation : Option Nat) :
    Nat → Place → Nat → Option (List Char × Nat × Place)
  | 0, _, _ => none
  | fuel + 1, place, deepest =>
    let blanks := (place.rest.takeWhile (· == ' ')).length
    let place := place.skip (match indentation with
      | some column => min blanks (column - place.column)
      | none => blanks)
    let deepest := max deepest place.column
    if indentation.all (place.column < ·) && place.rest.head? = some '\t' then none
    else if place.rest.head?.any isBreak then do
      let (lineEnd, place) := place.readBreak
      let (more, deepest, place) ← readEmptyLines indentation fuel place deepest
      return (lineEnd ++ more, deepest, place)
    else some ([], deepest, place)

/-- The lines of a block.  `lineEnd` and `further` are the line ends before
the place, `blank` tells whether the line before began with a blank. -/
def readLines (style : ScalarStyle) (column : Nat) :
    Nat → Place → List Char → Bool → List Char →
      Option (List Char × List Char × List Char × Place)
  | 0, _, _, _, _ => none
  | fuel + 1, place, lineEnd, blank, further =>
    if place.column ≠ column || place.rest.isEmpty then some ([], lineEnd, further, place)
    else do
      let startsBlank := place.rest.head?.any isBlank
      -- only lines that begin without a blank are folded
      let folds := style == .folded && lineEnd.head? = some '\n' && !blank && !startsBlank
      let joint := if folds then (if further.isEmpty then [' '] else []) else lineEnd
      let (line, place) := place.takeWhile (!isBreak ·)
      let (lineEnd, place) := place.readBreak
      let (more, _, place) ← readEmptyLines (some column) (place.rest.length + 1) place 0
      let (text, lineEnd, further', place) ←
        readLines style column fuel place lineEnd startsBlank more
      return (joint ++ further ++ line ++ text, lineEnd, further', place)

/-- A block after its indicator; `outer` is the column of the block around
it, if there is one. -/
def readBlock (style : ScalarStyle) (outer : Option Nat) (place : Place) :
    Option (List Char × Place) := do
  let (chomping, indentation, place) ← readBlockHeader place
  let place ← place.endLine?
  let known := indentation.map (outer.getD 0 + ·)
  let fuel := place.rest.length + 1
  let (further, deepest, place) ← readEmptyLines known fuel place 0
  let least := match outer with
    | some column => column + 1
    | none => 1
  let column := known.getD (max deepest least)
  let (text, lineEnd, further, place) ← readLines style column fuel place [] false further
  let tail := match chomping with
    | .strip => []
    | .clip => lineEnd
    | .keep => lineEnd ++ further
  return (text ++ tail, place)

end PropertyGraph.Yaml
