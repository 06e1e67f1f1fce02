/-
# Extended precision — numbers with sixty-four significant bits

Powers of ten are multiplied up, and down, in a wider format than that of the
doubles at either end: a significand of sixty-four bits, and an exponent that
never runs out.  Every product is rounded to the nearest such number, a tie
going to the even one.  There are no signs here, since the sign of a number is
put back on at the end.

Everything is exact integer arithmetic but for the one rounding in `rounded`,
through which every result passes.
-/
import MessageCache.Number.Binary64
import MessageCache.Number.Digits

namespace MessageCache

/-- The number `significand · 2 ^ exponent`. -/
structure Extended where
  significand : Nat
  exponent : Int
deriving DecidableEq

/-- The number of binary digits. -/
def bitLength (n : Nat) : Nat := if n = 0 then 0 else n.log2 + 1

/-- `n / 2 ^ k` rounded to the nearest integer, a tie going to the even one. -/
def shiftRounded (n k : Nat) : Nat :=
  let quotient := n >>> k
  let twice := (n - quotient <<< k) <<< 1
  let one := 1 <<< k
  if one < twice ∨ (one = twice ∧ quotient % 2 = 1) then quotient + 1 else quotient

namespace Extended

/-- The bits of a significand. -/
def precision : Nat := 64

/-- `n · 2 ^ exponent` rounded to sixty-four bits. -/
def rounded (n : Nat) (exponent : Int) : Extended :=
  let excess := bitLength n - precision
  { significand := shiftRounded n excess, exponent := exponent + excess }

/-- The nearest number to an integer. -/
def ofNat (n : Nat) : Extended := rounded n 0

/-- The nearest number to `1 / den`: enough bits of the quotient to round it,
and one more that says whether anything follows them. -/
def reciprocal (den : Nat) : Extended :=
  let places := bitLength den + precision + 2
  let quotient := (1 <<< places) / den
  let rest := (1 <<< places) % den
  rounded (2 * quotient + (if rest = 0 then 0 else 1)) (-(places : Int) - 1)

/-- The absolute value of a finite double, which loses nothing. -/
def ofBinary64 (x : Binary64) : Extended :=
  { significand := x.significand, exponent := (x.shift : Int) - 1074 }

def mul (a b : Extended) : Extended :=
  rounded (a.significand * b.significand) (a.exponent + b.exponent)

/-- The first number is not above the second. -/
def le (a b : Extended) : Bool :=
  a.significand <<< (a.exponent - b.exponent).toNat ≤
    b.significand <<< (b.exponent - a.exponent).toNat

/-- The integer part. -/
def floor (a : Extended) : Nat :=
  (a.significand <<< a.exponent.toNat) >>> (-a.exponent).toNat

/-- The greatest finite double. -/
def greatestDouble : Extended := ofBinary64 ⟨0x7FEFFFFFFFFFFFFF⟩

/-- The bits of the double that is `significand` units of `2 ^ (shift - 1074)`,
for a significand of at most fifty-three bits: a carry out of the fraction goes
where it belongs, into the exponent. -/
def doubleBits (significand shift : Nat) : Nat :=
  let up := min (53 - bitLength significand) shift
  let significand := significand <<< up
  let shift := shift - up
  if significand < 0x10000000000000 then significand
  else (shift + 1) <<< 52 + (significand - 0x10000000000000)

/-- The nearest double, with a sign; beyond the finite ones the infinite one. -/
def toBinary64 (negative : Bool) (a : Extended) : Binary64 :=
  if a.le greatestDouble then
    let units := a.exponent + 1074
    let drop := max (bitLength a.significand - 53) (-units).toNat
    let bits := doubleBits (shiftRounded a.significand drop) (units + drop).toNat
    ⟨UInt64.ofNat (if negative then 0x8000000000000000 + bits else bits)⟩
  else .infinity negative

/-! ## Powers of ten -/

/-- A number multiplied by a factor several times, rounded each time. -/
def times (factor : Extended) : Nat → Extended → Extended
  | 0, a => a
  | n + 1, a => times factor n (a.mul factor)

def ten : Extended := ofNat (tenTo 1)

def ten10 : Extended := ofNat (tenTo 10)

def ten100 : Extended := ofNat (tenTo 100)

def tenth : Extended := reciprocal (tenTo 1)

def tenth10 : Extended := reciprocal (tenTo 10)

def tenth100 : Extended := reciprocal (tenTo 100)

/-- A number times `10 ^ k`: by hundreds of places, then by tens, then one by
one. -/
def scale (a : Extended) (k : Int) : Extended :=
  let n := k.natAbs
  if 0 ≤ k then times ten (n % 10) (times ten10 (n % 100 / 10) (times ten100 (n / 100) a))
  else times tenth (n % 10) (times tenth10 (n % 100 / 10) (times tenth100 (n / 100) a))

end Extended

end MessageCache
