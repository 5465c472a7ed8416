/-
  PropertyGraph.Text.Range
  ────────────────────────
  **CLASSES OF CHARACTERS AS RANGES.**
-/

namespace PropertyGraph.Text

/-- Is the character in one of the ranges of code points, both ends included? -/
def inRanges (ranges : List (Nat × Nat)) (c : Char) : Bool :=
  ranges.any (fun (first, last) => first ≤ c.toNat && c.toNat ≤ last)

end PropertyGraph.Text
