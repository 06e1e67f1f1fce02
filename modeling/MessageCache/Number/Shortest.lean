/-
# Shortest — the decimal digits that stand for a double

`Binary64.shortest` is the decimal with the fewest digits that reads back as
the same double; of several with equally few digits, the one nearest to it.
For each number of digits only the two neighbours of the value on that decimal
grid can be meant, and both are tested in exact integer arithmetic against the
interval of numbers that round to the double.
-/
import MessageCache.Number.Decimal

namespace MessageCache

/-- The place of the leading digit of the positive fraction `num / den`. -/
def leadingPlace (num den : Nat) : Int :=
  if den ≤ num then ((Digits.ofNat (num / den)).length : Int) - 1
  else -((Digits.ofNat ((den + num - 1) / num - 1)).length : Int)

/-- A decimal without trailing zeros; the fuel is the number of digits. -/
def stripZeros : Nat → Decimal → Decimal
  | 0, d => d
  | fuel + 1, d =>
    if d.digits % 10 = 0 ∧ d.digits ≠ 0 then
      stripZeros fuel { d with digits := d.digits / 10, exponent := d.exponent + 1 }
    else d

/-- A decimal with the same value and the fewest digits. -/
def Decimal.normal (d : Decimal) : Decimal := stripZeros (Digits.ofNat d.digits).length d

/-- The positive fractions, over one denominator, that round to a double: its
value and the ends of its interval, and whether the ends belong to it. -/
structure RoundingInterval where
  low : Nat
  value : Nat
  high : Nat
  den : Nat
  closed : Bool

namespace RoundingInterval

/-- The interval of a finite double other than zero, in quarters of its unit in
the last place: the lower half is narrower above a power of two. -/
def ofBinary64 (x : Binary64) : RoundingInterval :=
  let below := if x.fraction = 0 ∧ 1 < x.exponentField then 1 else 2
  { low := (4 * x.significand - below) <<< x.shift
    value := (4 * x.significand) <<< x.shift
    high := (4 * x.significand + 2) <<< x.shift
    den := 4 * Binary64.unit
    closed := x.significand % 2 = 0 }

/-- The interval with `10 ^ g` as its unit. -/
def scale (i : RoundingInterval) (g : Int) : RoundingInterval :=
  let up := tenTo g.toNat
  let down := tenTo (-g).toNat
  { low := i.low * down, value := i.value * down, high := i.high * down
    den := i.den * up, closed := i.closed }

/-- The integer `c` lies in the interval. -/
def contains (i : RoundingInterval) (c : Nat) : Bool :=
  if i.closed then i.low ≤ c * i.den && c * i.den ≤ i.high
  else i.low < c * i.den && c * i.den < i.high

/-- The nearer of the two integers around the value that lie in the interval, a
tie going to the even one. -/
def neighbour (i : RoundingInterval) : Option Nat :=
  let c := i.value / i.den
  let below := i.value - c * i.den
  let above := (c + 1) * i.den - i.value
  match i.contains c, i.contains (c + 1) with
  | false, false => none
  | true, false => some c
  | false, true => some (c + 1)
  | true, true =>
    if below < above then some c
    else if above < below then some (c + 1)
    else if c % 2 = 0 then some c else some (c + 1)

end RoundingInterval

namespace Binary64

/-- The place of the leading digit of a finite double other than zero. -/
def place (x : Binary64) : Int := leadingPlace x.magnitude unit

/-- The shortest decimal that reads back as the finite double `x`. -/
def shortest (x : Binary64) : Decimal :=
  if x.magnitude = 0 then ⟨x.negative, 0, 0⟩
  else
    let interval := RoundingInterval.ofBinary64 x
    let found := (List.range 17).findSome? fun (n : Nat) =>
      let g := x.place - (n : Int)
      ((interval.scale g).neighbour).map fun c => Decimal.mk x.negative c g
    (found.getD ⟨x.negative, 0, 0⟩).normal

end Binary64

end MessageCache
