/-
  PropertyGraph.Proofs.Json.String
  ────────────────────────────────
  **STRINGS ARE READ BACK.**

  Every character is written so that it is read as itself, whatever follows
  it (`readChar_escape`): by a letter, by its number, or as it stands.  No
  escape begins with a quote, so the closing quote is the first one that is
  met.
-/
import PropertyGraph.Json.Printer
import PropertyGraph.Json.Reader

namespace PropertyGraph.Json

open PropertyGraph.Text

/-- Two lower-case digits are read as the number below 32 that they write. -/
theorem hexValue4?_hexDigit : ∀ n, n < 0x20 →
    hexValue4? '0' '0' (hexDigit (n / 16)) (hexDigit (n % 16)) = some n
      ∧ isSurrogate n = false := by
  decide

theorem readChar_plain {c : Char} {text : List Char} (hslash : c ≠ '\\')
    (hcontrol : ¬ c.toNat < 0x20) : readChar (c :: text) = some (c, text) := by
  unfold readChar
  split
  next heq => exact absurd (List.cons.inj heq).1 hslash
  next heq => exact absurd (List.cons.inj heq).1 hslash
  next heq =>
    obtain ⟨rfl, rfl⟩ := List.cons.inj heq
    exact if_neg hcontrol
  next heq => cases heq

theorem readChar_unicode {a b c d : Char} {n : Nat} {text : List Char}
    (hvalue : hexValue4? a b c d = some n) (hsurrogate : isSurrogate n = false) :
    readChar ('\\' :: 'u' :: a :: b :: c :: d :: text) = some (Char.ofNat n, text) := by
  rw [readChar, hvalue]
  show (if isSurrogate n = true then _ else _) = _
  rw [hsurrogate]
  rfl

/-- **A character is read as it was written.** -/
theorem readChar_escape (c : Char) (text : List Char) :
    readChar (escape c ++ text) = some (c, text) := by
  unfold escape
  split
  · next h => rw [h]; rfl
  split
  · next h => rw [h]; rfl
  split
  · next h => rw [h]; rfl
  split
  · next h => rw [h]; rfl
  split
  · next h => rw [h]; rfl
  split
  · next h => rw [h]; rfl
  split
  · next h => rw [h]; rfl
  split
  · next hcontrol =>
    obtain ⟨hvalue, hsurrogate⟩ := hexValue4?_hexDigit c.toNat hcontrol
    have hread : readChar ('\\' :: 'u' :: '0' :: '0' :: hexDigit (c.toNat / 16)
        :: hexDigit (c.toNat % 16) :: text) = some (Char.ofNat c.toNat, text) :=
      readChar_unicode hvalue hsurrogate
    rw [Char.ofNat_toNat] at hread
    exact hread
  · next hslash _ _ _ _ _ hcontrol => exact readChar_plain hslash hcontrol

/-- No character is written beginning with a quote. -/
theorem escape_begins (c : Char) : ∃ d tail, escape c = d :: tail ∧ d ≠ '"' := by
  unfold escape
  split
  · exact ⟨'\\', _, rfl, by decide⟩
  · next hquote =>
    repeat' split
    all_goals first
      | exact ⟨'\\', _, rfl, by decide⟩
      | exact ⟨c, _, rfl, hquote⟩

theorem readChars_cons {fuel : Nat} {c : Char} {text : List Char} (h : c ≠ '"') :
    readChars (fuel + 1) (c :: text)
      = (readChar (c :: text)).bind (fun (d, rest) =>
          (readChars fuel rest).bind (fun (cs, rest) => some (d :: cs, rest))) := by
  rw [readChars]
  · rfl
  · intro tail heq
    exact h (List.cons.inj heq).1

/-- The characters of a string are read up to its closing quote. -/
theorem readChars_writeChars (cs : List Char) :
    ∀ {fuel : Nat} {rest : List Char}, cs.length < fuel →
      readChars fuel (writeChars cs rest) = some (cs, rest) := by
  induction cs with
  | nil =>
    intro fuel rest hfuel
    cases fuel with
    | zero => exact absurd hfuel (Nat.not_lt_zero 0)
    | succ fuel => rfl
  | cons c cs ih =>
    intro fuel rest hfuel
    cases fuel with
    | zero => exact absurd hfuel (Nat.not_lt_zero _)
    | succ fuel =>
      obtain ⟨d, tail, hescape, hd⟩ := escape_begins c
      have hread := readChar_escape c (writeChars cs rest)
      rw [writeChars]
      rw [hescape, List.cons_append] at hread ⊢
      rw [readChars_cons hd, hread, Option.bind_some]
      dsimp only
      rw [ih (Nat.lt_of_succ_lt_succ hfuel)]
      rfl

theorem length_writeChars (cs rest : List Char) :
    cs.length + rest.length < (writeChars cs rest).length := by
  induction cs with
  | nil =>
    show 0 + rest.length < rest.length + 1
    omega
  | cons c cs ih =>
    obtain ⟨d, tail, hescape, -⟩ := escape_begins c
    rw [writeChars, hescape, List.length_append]
    simp only [List.length_cons]
    omega

/-- **A string is read as it was written.** -/
theorem readString_writeChars (s : String) (rest : List Char) :
    readString (writeChars s.toList rest) = some (s, rest) := by
  have hlength := length_writeChars s.toList rest
  unfold readString
  rw [readChars_writeChars s.toList (by omega)]
  show some (String.ofList s.toList, rest) = some (s, rest)
  rw [String.ofList_toList]

end PropertyGraph.Json
