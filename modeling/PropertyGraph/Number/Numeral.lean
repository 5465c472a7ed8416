/-
  PropertyGraph.Number.Numeral
  ────────────────────────────
  **NUMBERS AS THEY ARE WRITTEN.**

  Query literals and data files write numbers alike: a sign, digits, perhaps
  a point with more digits, perhaps a power of ten.  They differ in which of
  these texts they admit, and that is left to their grammars; a `Numeral`
  keeps the parts, so that the text can be given back as written
  (`Numeral.text`) and its value taken (`toInt`, `toBinary64`).
-/
import PropertyGraph.Number.Binary64

namespace PropertyGraph

/-- A sign that may be left out. -/
inductive SignMark where
  | absent
  | plus
  | minus
  deriving DecidableEq

namespace SignMark

/-- The sign as written. -/
def text : SignMark → List Char
  | .absent => []
  | .plus => ['+']
  | .minus => ['-']

/-- Takes an optional sign off a text. -/
def read : List Char → SignMark × List Char
  | '+' :: text => (.plus, text)
  | '-' :: text => (.minus, text)
  | text => (.absent, text)

/-- Does the sign negate? -/
def negative : SignMark → Bool
  | .minus => true
  | _ => false

/-- The signed value of a magnitude. -/
def apply (sign : SignMark) (magnitude : Nat) : Int :=
  if sign.negative then -(magnitude : Int) else magnitude

end SignMark

/-- The power of ten of a written number. -/
structure PowerOfTen where
  /-- The letter e of either case, as written. -/
  mark : Char
  sign : SignMark
  digits : List Char
  deriving DecidableEq

/-- A number in its written parts.  `fraction` is the digits after the point,
if there is a point; there may be none of them. -/
structure Numeral where
  sign : SignMark
  whole : List Char
  fraction : Option (List Char)
  power : Option PowerOfTen
  deriving DecidableEq

namespace Numeral

/-- The number as written. -/
def text (n : Numeral) : List Char :=
  n.sign.text ++ n.whole
    ++ (match n.fraction with
        | some digits => '.' :: digits
        | none => [])
    ++ (match n.power with
        | some p => p.mark :: (p.sign.text ++ p.digits)
        | none => [])

/-- Written with neither point nor power of ten. -/
def isWhole (n : Numeral) : Bool := n.fraction.isNone && n.power.isNone

/-- All digits before the power of ten, read as one number. -/
def coefficient (n : Numeral) : Nat :=
  Nat.ofDigitChars 10 (n.whole ++ n.fraction.getD []) 0

/-- The power of ten that belongs to `coefficient`. -/
def exponent (n : Numeral) : Int :=
  (match n.power with
    | some p => p.sign.apply (Nat.ofDigitChars 10 p.digits 0)
    | none => 0)
    - (n.fraction.getD []).length

/-- The value of a whole number. -/
def toInt (n : Numeral) : Int := n.sign.apply n.coefficient

/-- The nearest float. -/
def toBinary64 (n : Numeral) : Binary64 :=
  Binary64.ofDecimal n.sign.negative n.coefficient n.exponent

end Numeral

end PropertyGraph
