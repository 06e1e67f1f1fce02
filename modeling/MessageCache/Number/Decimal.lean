/-
# Decimal — numbers written in decimal

`Decimal` is a sign, digits and a power of ten.  `Decimal.read?` reads the whole
of a text as one, with a fraction and an exponent if they are there, and
`Decimal.nearest` is the double closest to it, a tie going to the even one.
-/
import MessageCache.Number.Digits
import MessageCache.Number.Binary64

namespace MessageCache

/-- The number `± digits · 10 ^ exponent`. -/
structure Decimal where
  negative : Bool
  digits : Nat
  exponent : Int
deriving DecidableEq

namespace Decimal

/-- The place of the leading digit, zero for the units. -/
def place (d : Decimal) : Int := d.exponent + ((Digits.ofNat d.digits).length : Int) - 1

/-- The nearest double.  A decimal whose leading digit lies hundreds of places
beyond the range of doubles is decided without computing its power of ten. -/
def nearest (d : Decimal) : Binary64 :=
  if d.digits = 0 ∨ d.place < -400 then .zero d.negative
  else if 400 < d.place then .infinity d.negative
  else
    let x := Float.ofScientific d.digits (d.exponent < 0) d.exponent.natAbs
    .ofFloat (if d.negative then -x else x)

/-- A written number: its value, and whether it is written as an integer,
without fraction or exponent. -/
structure Written where
  value : Decimal
  whole : Bool

/-- The fraction at the front: the digits after a point, if there is one. -/
def fractionPart : List Char → Option (List Char) × List Char
  | '.' :: rest => let (ds, rest) := Digits.split rest; (some ds, rest)
  | rest => (none, rest)

/-- The whole text read as a number: a sign, digits around an optional point, an
exponent. -/
def read? (cs : List Char) : Option Written := do
  let (negative, rest) := Digits.sign cs
  let (whole, rest) := Digits.split rest
  let (fraction, rest) := fractionPart rest
  let (exponent, rest) ← Digits.exponent rest
  let digits := whole ++ fraction.getD []
  if digits = [] ∨ rest ≠ [] then none
  else
    return {
      value := {
        negative
        digits := Digits.toNat digits
        exponent := exponent.getD 0 - ((fraction.getD []).length : Int) }
      whole := fraction.isNone && exponent.isNone }

/-- The number at the front of a text, which is zero if there is none.  An
exponent without digits does not belong to it. -/
def readPrefix (cs : List Char) : Decimal :=
  let (negative, rest) := Digits.sign cs
  let (whole, rest) := Digits.split rest
  let (fraction, rest) := fractionPart rest
  let fraction := fraction.getD []
  let exponent := ((Digits.exponent rest).bind (·.1)).getD 0
  { negative
    digits := Digits.toNat (whole ++ fraction)
    exponent := exponent - (fraction.length : Int) }

end Decimal

/-- The double that a text names: a decimal number, an infinity or no number. -/
def Binary64.read? (s : String) : Option Binary64 :=
  let (negative, rest) := Digits.sign s.toList
  let word := String.ofList (rest.map Char.toLower)
  if word = "inf" ∨ word = "infinity" then some (.infinity negative)
  else if word = "nan" then some ⟨0x7FF8000000000000⟩
  else (Decimal.read? s.toList).map fun w => w.value.nearest

end MessageCache
