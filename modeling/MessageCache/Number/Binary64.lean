/-
# Binary64 — double precision numbers, taken apart exactly

A stored floating point number is its sixty-four bits.  Everything the cache
asks of one is answered in integer arithmetic: a finite double is a multiple of
`2 ^ -1074`, and `scaled` is that multiple.  It is defined on infinities as
well, beyond every finite value, so that comparing `scaled` orders all doubles
that a table can hold.
-/

namespace MessageCache

/-- A double precision number. -/
structure Binary64 where
  bits : UInt64
deriving DecidableEq

namespace Binary64

/-- One, as a multiple of `2 ^ -1074`. -/
def unit : Nat := 1 <<< 1074

/-- A number below zero, or the negative zero. -/
def negative (x : Binary64) : Bool := x.bits >>> 63 = 1

/-- The eleven bits of the exponent. -/
def exponentField (x : Binary64) : Nat := (x.bits >>> 52 &&& 0x7FF).toNat

/-- The fifty-two bits of the fraction. -/
def fraction (x : Binary64) : Nat := (x.bits &&& 0xFFFFFFFFFFFFF).toNat

def isFinite (x : Binary64) : Bool := x.exponentField < 2047

def isInfinite (x : Binary64) : Bool := !x.isFinite && x.fraction = 0

def isNaN (x : Binary64) : Bool := !x.isFinite && x.fraction ≠ 0

/-- The significand: the fraction, and the leading bit of a normal number. -/
def significand (x : Binary64) : Nat :=
  if x.exponentField = 0 then x.fraction else 0x10000000000000 + x.fraction

/-- The power of two above `2 ^ -1074` that the significand counts. -/
def shift (x : Binary64) : Nat := x.exponentField - 1

/-- The absolute value as a multiple of `2 ^ -1074`. -/
def magnitude (x : Binary64) : Nat := x.significand <<< x.shift

/-- The value as a multiple of `2 ^ -1074`. -/
def scaled (x : Binary64) : Int := if x.negative then -(x.magnitude : Int) else x.magnitude

/-- The integer that a finite double is, if it is one. -/
def toInt? (x : Binary64) : Option Int :=
  if x.isFinite && x.magnitude % unit = 0 then
    let n : Int := (x.magnitude / unit : Nat)
    some (if x.negative then -n else n)
  else none

def ofFloat (x : Float) : Binary64 := ⟨x.toBits⟩

def toFloat (x : Binary64) : Float := Float.ofBits x.bits

def infinity (negative : Bool) : Binary64 :=
  ⟨if negative then 0xFFF0000000000000 else 0x7FF0000000000000⟩

def zero (negative : Bool) : Binary64 := ⟨if negative then 0x8000000000000000 else 0⟩

end Binary64

end MessageCache
