/-
# Digits — the parts that written numbers are made of

What every reader of numbers shares: the run of digits at the front of a list of
characters and the number it spells, a sign, an exponent.  Each part is taken
off the front and the rest is given back.
-/

namespace MessageCache

/-- A power of ten. -/
def tenTo (n : Nat) : Nat := Nat.pow 10 n

namespace Digits

/-- The digits at the front, and what follows them. -/
def split (cs : List Char) : List Char × List Char :=
  (cs.takeWhile Char.isDigit, cs.dropWhile Char.isDigit)

/-- The value of one digit. -/
def value (c : Char) : Nat := c.toNat - '0'.toNat

/-- The number that digits spell, most significant first. -/
def toNat (cs : List Char) : Nat := cs.foldl (fun n c => 10 * n + value c) 0

/-- The digits of a number, most significant first. -/
def ofNat (n : Nat) : List Char := Nat.toDigits 10 n

/-- The sign at the front, if there is one: whether it is a minus. -/
def sign : List Char → Bool × List Char
  | '-' :: rest => (true, rest)
  | '+' :: rest => (false, rest)
  | rest => (false, rest)

/-- The exponent at the front, if there is one; nothing at all where its mark
has no digits after it. -/
def exponent : List Char → Option (Option Int × List Char)
  | [] => some (none, [])
  | c :: cs =>
    if c = 'e' ∨ c = 'E' then
      let (negative, cs) := sign cs
      let (ds, rest) := split cs
      if ds = [] then none
      else some (some (if negative then -(toNat ds : Int) else toNat ds), rest)
    else some (none, c :: cs)

end Digits

end MessageCache
