/-
# How a decimal is written

A `NumberStyle` fixes what digits alone leave open: which numbers are written
positionally, and what an exponent looks like.  A number always shows a point
or an exponent, so that it is never taken for an integer.
-/
import MessageCache.Number.Column

namespace MessageCache

/-- The decisions of a number format. -/
structure NumberStyle where
  /-- The least place of the leading digit that is written positionally. -/
  lowest : Int
  /-- The greatest place of the leading digit that is written positionally. -/
  highest : Int
  /-- An exponent that is not negative has a plus sign. -/
  plus : Bool
  /-- The least number of digits of an exponent. -/
  width : Nat
  /-- A single digit before an exponent is followed by a point and a zero. -/
  point : Bool

namespace NumberStyle

/-- Floating point numbers quoted in the reader's problems. -/
def quotation : NumberStyle :=
  { lowest := -5, highest := 15, plus := true, width := 1, point := false }

/-- Floating point numbers shown as the content of a cell. -/
def display : NumberStyle :=
  { lowest := -4, highest := 15, plus := false, width := 1, point := false }

/-- Floating point numbers turned into text by a text column. -/
def column : NumberStyle :=
  { lowest := -4, highest := 14, plus := true, width := 2, point := true }

/-- Zeros in front, up to a width. -/
def padded (width : Nat) (ds : List Char) : List Char :=
  List.replicate (width - ds.length) '0' ++ ds

/-- Digits written positionally, the last of them at the place `exponent`. -/
def positional (ds : List Char) (exponent : Int) : List Char :=
  if 0 ≤ exponent then ds ++ List.replicate exponent.toNat '0' ++ ['.', '0']
  else
    let places := (-exponent).toNat
    let ds := padded (places + 1) ds
    ds.take (ds.length - places) ++ '.' :: ds.drop (ds.length - places)

/-- Digits written with an exponent, the first of them at the place `place`. -/
def exponential (style : NumberStyle) (ds : List Char) (place : Int) : List Char :=
  let tail := match ds.drop 1 with
    | [] => if style.point then ['.', '0'] else []
    | rest => '.' :: rest
  let mark := if place < 0 then ['-'] else if style.plus then ['+'] else []
  ds.take 1 ++ tail ++ 'e' :: mark ++ padded style.width (Digits.ofNat place.natAbs)

/-- A decimal in a style. -/
def write (style : NumberStyle) (d : Decimal) : String :=
  let ds := Digits.ofNat d.digits
  let body :=
    if d.digits = 0 then ['0', '.', '0']
    else if style.lowest ≤ d.place ∧ d.place ≤ style.highest then positional ds d.exponent
    else style.exponential ds d.place
  String.ofList (if d.negative then '-' :: body else body)

end NumberStyle

namespace Binary64

/-- A double in a style, with the names of the values that have no digits. -/
def text (style : NumberStyle) (x : Binary64) (d : Decimal) : String :=
  if x.isNaN then "NaN"
  else if x.isInfinite then (if x.negative then "-inf" else "inf")
  else style.write d

/-- A double as it is quoted in a reader's problem. -/
def quotation (x : Binary64) : String := x.text .quotation x.shortest

/-- A double as it is shown as the content of a cell. -/
def display (x : Binary64) : String := x.text .display x.shortest

/-- A double as text in a text column, to fifteen significant digits. -/
def columnText (x : Binary64) : String :=
  if x.isInfinite then (if x.negative then "-Inf" else "Inf")
  else x.text .column x.columnDigits

end Binary64

end MessageCache
