/-
  PropertyGraph.Proofs.Number.Parts
  ─────────────────────────────────
  **THE TEXT OF A NUMBER, PART BY PART.**

  Queries and data files read the parts of a number in the same order and
  with the same sign (`SignMark.read`).  What differs between them is which
  parts they admit, so the text is taken apart here and read there.
-/
import PropertyGraph.Number.Numeral
import PropertyGraph.Proofs.Text.Run

namespace PropertyGraph

open PropertyGraph.Text

/-! ## §1. The sign. -/

theorem signMark_text_read (text : List Char) :
    (SignMark.read text).1.text ++ (SignMark.read text).2 = text := by
  unfold SignMark.read
  split <;> rfl

theorem signMark_read_text (sign : SignMark) {rest : List Char}
    (hrest : Stops (fun c => c == '+' || c == '-') rest) :
    SignMark.read (sign.text ++ rest) = (sign, rest) := by
  cases sign with
  | plus => rfl
  | minus => rfl
  | absent =>
    show SignMark.read rest = (.absent, rest)
    unfold SignMark.read
    split
    next heq => exact absurd (hrest _ _ rfl) (by decide)
    next heq => exact absurd (hrest _ _ rfl) (by decide)
    next => rfl

/-- A digit is no sign. -/
theorem stops_sign_of_digits {digits rest : List Char} (hdigits : ∀ c ∈ digits, c.isDigit = true)
    (hne : digits ≠ []) : Stops (fun c => c == '+' || c == '-') (digits ++ rest) := by
  cases digits with
  | nil => exact absurd rfl hne
  | cons d tail =>
    refine stops_cons ?_
    have hd : d.isDigit = true := hdigits d List.mem_cons_self
    simp only [Bool.or_eq_false_iff, beq_eq_false_iff_ne]
    constructor
    · intro heq
      subst heq
      exact absurd hd (by decide)
    · intro heq
      subst heq
      exact absurd hd (by decide)

/-! ## §2. The other parts. -/

/-- The digits after a point and the point, if there is one. -/
def fractionText : Option (List Char) → List Char
  | some digits => '.' :: digits
  | none => []

/-- A power of ten as written, if there is one. -/
def powerText : Option PowerOfTen → List Char
  | some p => p.mark :: (p.sign.text ++ p.digits)
  | none => []

theorem numeral_text (n : Numeral) :
    n.text = n.sign.text ++ (n.whole ++ (fractionText n.fraction ++ powerText n.power)) := by
  obtain ⟨sign, whole, fraction, power⟩ := n
  show sign.text ++ whole ++ fractionText fraction ++ powerText power = _
  rw [List.append_assoc, List.append_assoc]

end PropertyGraph
