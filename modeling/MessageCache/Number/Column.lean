/-
# Numbers in columns

A number column reads numbers out of texts, and a text column writes numbers
down.  Both work in extended precision and with a bounded number of digits, so
that now and then the last place is not that of the nearest double, or of the
nearest decimal: what is stored is what is defined here, and not the nearest.

`Decimal.columnValue` is the double that a written number becomes.
`Binary64.columnDigits` is the decimal of at most fifteen digits that a double
becomes.
-/
import MessageCache.Number.Extended
import MessageCache.Number.Shortest

namespace MessageCache

namespace Decimal

/-! ## Reading -/

/-- The least run of digits after which no further one counts. -/
def enoughDigits : Nat := 1844674407370955160

/-- A decimal with its digits cut off after the first nineteen, or after the
twentieth if nineteen are not enough. -/
def truncated (d : Decimal) : Decimal :=
  let length := (Digits.ofNat d.digits).length
  if length ≤ 19 then d
  else
    let surplus := length - 19
    let surplus := if d.digits / tenTo surplus < enoughDigits then surplus - 1 else surplus
    { d with digits := d.digits / tenTo surplus, exponent := d.exponent + surplus }

/-- Places moved from a positive exponent into the digits, as long as they stay
below sixty-four bits; the fuel is the most digits that there can be. -/
def widened : Nat → Decimal → Decimal
  | 0, d => d
  | fuel + 1, d =>
    if 0 < d.exponent ∧ d.digits ≤ enoughDigits then
      widened fuel { d with digits := 10 * d.digits, exponent := d.exponent - 1 }
    else d

/-- Final zeros moved out of the digits against a negative exponent; the fuel is
the most digits that there can be. -/
def narrowed : Nat → Decimal → Decimal
  | 0, d => d
  | fuel + 1, d =>
    if d.exponent < 0 ∧ d.digits % 10 = 0 then
      narrowed fuel { d with digits := d.digits / 10, exponent := d.exponent + 1 }
    else d

/-- The double that a number column holds for a written number.  A decimal whose
leading digit lies hundreds of places beyond the range of doubles is decided
without computing its power of ten. -/
def columnValue (d : Decimal) : Binary64 :=
  if d.digits = 0 ∨ d.place < -400 then .zero d.negative
  else if 400 < d.place then .infinity d.negative
  else
    let d := narrowed 20 (widened 20 d.truncated)
    ((Extended.ofNat d.digits).scale d.exponent).toBinary64 d.negative

end Decimal

/-! ## Writing -/

namespace Extended

/-- A number multiplied by a factor for as long as `goOn` says, and the places
that the decimal point has moved, each time by `places`. -/
def moveWhile (goOn : Extended → Bool) (factor : Extended) (places : Int) :
    Nat → Extended × Int → Extended × Int
  | 0, a => a
  | fuel + 1, (a, moved) =>
    if goOn a then moveWhile goOn factor places fuel (a.mul factor, moved + places)
    else (a, moved)

/-- A number below `10 ^ 19`, by hundreds of places, then by tens, then one by
one; twelve moves of each are more than any double takes. -/
def movedDown (a : Extended) : Extended × Int :=
  let atLeast (n : Nat) (a : Extended) : Bool := (ofNat (tenTo n)).le a
  moveWhile (atLeast 19) tenth 1 12
    (moveWhile (atLeast 29) tenth10 10 12 (moveWhile (atLeast 119) tenth100 100 12 (a, 0)))

/-- A number not below `10 ^ 17`, in the same way. -/
def movedUp (a : Extended) : Extended × Int :=
  let below (bound a : Extended) : Bool := !bound.le a
  moveWhile (below (ofNat (tenTo 17))) ten (-1) 12
    (moveWhile (below (ofNat (tenTo 7))) ten10 (-10) 12
      (moveWhile (below (reciprocal (tenTo 97))) ten100 (-100) 12 (a, 0)))

end Extended

/-- A number of digits cut to the first fifteen, a half going up. -/
def fifteenDigits (n : Nat) : Nat × Nat :=
  let length := (Digits.ofNat n).length
  if length ≤ 15 then (n, 0)
  else
    let surplus := length - 15
    let kept := n / tenTo surplus
    let next := n / tenTo (surplus - 1) % 10
    (if 5 ≤ next then kept + 1 else kept, surplus)

/-- The decimal that a text column writes for a finite double; zero has no
sign. -/
def Binary64.columnDigits (x : Binary64) : Decimal :=
  if x.magnitude = 0 then ⟨false, 0, 0⟩
  else
    let a := Extended.ofBinary64 x
    let (a, moved) := if (Extended.ofNat (tenTo 19)).le a then a.movedDown else a.movedUp
    let (digits, surplus) := fifteenDigits a.floor
    (Decimal.mk x.negative digits (moved + surplus)).normal

end MessageCache
