/-
# Sums that keep what rounding loses

Adding doubles of different size loses the low places of the smaller one.  A
`CompensatedSum` adds up what was lost on the side and puts it back at the end.
Integers are taken apart before they are added if they have more places than a
double holds.
-/
import MessageCache.Number.Binary64

namespace MessageCache

structure CompensatedSum where
  sum : Float
  /-- What the rounding of the sums so far has lost. -/
  lost : Float

namespace CompensatedSum

def zero : CompensatedSum := { sum := 0, lost := 0 }

/-- One more summand.  What the sum with it loses is the rest of the smaller of
the two. -/
def add (s : CompensatedSum) (x : Float) : CompensatedSum :=
  let sum := s.sum + x
  let lost := if x.abs < s.sum.abs then (s.sum - sum) + x else (x - sum) + s.sum
  { sum, lost := s.lost + lost }

/-- From this absolute value on an integer is added in two parts. -/
def largeInteger : Int := 0x10000000000000

/-- The low part of a large integer. -/
def lowPart (n : Int) : Int := n.tmod 0x4000

/-- A sum that begins with an integer. -/
def ofInt (n : Int) : CompensatedSum :=
  if n.natAbs < largeInteger then { sum := Float.ofInt n, lost := 0 }
  else { sum := Float.ofInt (n - lowPart n), lost := Float.ofInt (lowPart n) }

/-- One more summand that is an integer. -/
def addInt (s : CompensatedSum) (n : Int) : CompensatedSum :=
  if n.natAbs < largeInteger then s.add (Float.ofInt n)
  else (s.add (Float.ofInt (n - lowPart n))).add (Float.ofInt (lowPart n))

/-- The sum with what was lost put back, unless that is no number. -/
def value (s : CompensatedSum) : Binary64 :=
  .ofFloat (if s.lost.isNaN then s.sum else s.sum + s.lost)

end CompensatedSum

end MessageCache
