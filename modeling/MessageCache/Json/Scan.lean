/-
# Scanning — from a text to its source

The scanner never fails: where the text stops being JSON it leaves `broken` in
the tree and gives up the rest, which it reports as `none`.  Of any two nested
calls the second has at least one character less to read, so two units of fuel
for each character are enough.
-/
import MessageCache.Json.Source
import MessageCache.Number.Digits
import MessageCache.Number.Range

namespace MessageCache.Json

/-- What is left of the text, if it can be read on. -/
abbrev Rest := Option (List Char)

def isBlank (c : Char) : Bool := c = ' ' || c = '\n' || c = '\t' || c = '\r'

def skipBlanks (cs : List Char) : List Char := cs.dropWhile isBlank

/-! ## Strings -/

/-- The code unit that four hexadecimal digits name. -/
def codeUnit (a b c d : Char) : Option Nat := do
  let a ← Text.hexValue a
  let b ← Text.hexValue b
  let c ← Text.hexValue c
  let d ← Text.hexValue d
  return ((a * 16 + b) * 16 + c) * 16 + d

def isHighSurrogate (n : Nat) : Bool := 0xD800 ≤ n && n < 0xDC00

def isLowSurrogate (n : Nat) : Bool := 0xDC00 ≤ n && n < 0xE000

/-- The character that two halves of a surrogate pair stand for. -/
def surrogatePair (high low : Nat) : Char :=
  Char.ofNat (0x10000 + (high - 0xD800) * 0x400 + (low - 0xDC00))

/-- The character that a short escape stands for. -/
def shortEscape : Char → Option Char
  | '\"' => some '\"'
  | '\\' => some '\\'
  | '/' => some '/'
  | 'b' => some '\x08'
  | 'f' => some '\x0c'
  | 'n' => some '\n'
  | 'r' => some '\r'
  | 't' => some '\t'
  | _ => none

/-- A string from after its opening quotation mark: its characters, `none` if a
surrogate stands alone in it, and what follows the closing mark. -/
def scanString : List Char → Option (List Char) × Rest
  | [] => (none, none)
  | '\"' :: rest => (some [], some rest)
  | '\\' :: 'u' :: a :: b :: c :: d :: '\\' :: 'u' :: e :: f :: g :: h :: rest =>
    match codeUnit a b c d with
    | none => (none, none)
    | some high =>
      match codeUnit e f g h with
      | none => (none, none)
      | some low =>
        if isHighSurrogate high then
          if isLowSurrogate low then
            let (s, k) := scanString rest
            (s.map (surrogatePair high low :: ·), k)
          else (none, (scanString ('\\' :: 'u' :: e :: f :: g :: h :: rest)).2)
        else
          let (s, k) := scanString ('\\' :: 'u' :: e :: f :: g :: h :: rest)
          (if isLowSurrogate high then none else s.map (Char.ofNat high :: ·), k)
  | '\\' :: 'u' :: a :: b :: c :: d :: rest =>
    match codeUnit a b c d with
    | none => (none, none)
    | some unit =>
      let (s, k) := scanString rest
      (if isHighSurrogate unit || isLowSurrogate unit then none
        else s.map (Char.ofNat unit :: ·), k)
  | '\\' :: c :: rest =>
    match shortEscape c with
    | none => (none, none)
    | some e =>
      let (s, k) := scanString rest
      (s.map (e :: ·), k)
  | c :: rest =>
    if c.toNat < 0x20 || c = '\\' then (none, none)
    else
      let (s, k) := scanString rest
      (s.map (c :: ·), k)

/-- A string as a source. -/
def stringSource : Option (List Char) × Rest → Source × Rest
  | (some cs, some rest) => (.text (String.ofList cs), some rest)
  | (none, some rest) => (.unpaired, some rest)
  | (_, none) => (.broken, none)

/-! ## Numbers -/

/-- The digits that fit into sixty-four bits, and those that no longer do: the
first digit that would exceed them and all that follow are left over. -/
def significandFrom (n : Nat) : List Char → Nat × List Char
  | [] => (n, [])
  | c :: rest =>
    let m := 10 * n + Digits.value c
    if InUInt64 m then significandFrom m rest else (n, c :: rest)

/-- The double `f · 10 ^ exponent`, by one multiplication or division, or a few
divisions for an exponent below the range of doubles; the fuel bounds those. -/
def scaleFloat : Nat → Float → Int → Option Float
  | 0, f, _ => some f
  | fuel + 1, f, exponent =>
    if exponent.natAbs ≤ 308 then
      let power := Float.ofScientific 1 false exponent.natAbs
      if 0 ≤ exponent then
        let g := f * power
        if g.isInf then none else some g
      else some (f / power)
    else if f == 0 then some f
    else if 0 ≤ exponent then none
    else scaleFloat fuel (f / Float.ofScientific 1 false 308) (exponent + 308)

/-- A number with a fraction, an exponent or too many digits.  A power of ten
beyond thirty-one bits makes zero, or leaves the range. -/
def floatSource (negative : Bool) (significand : Nat) (shift : Int) (exponent : Option Int) :
    Source :=
  let signed (f : Float) : Source := .float (if negative then -f else f)
  let power := exponent.getD 0
  if 0x80000000 ≤ power.natAbs then
    if significand = 0 ∨ power < 0 then signed 0 else .beyondRange
  else
    match scaleFloat 20 significand.toUInt64.toFloat (shift + power) with
    | some f => signed f
    | none => .beyondRange

/-- The source of a number from its parts.  Digits beyond the significand count
as a power of ten before the point, and not at all after it. -/
def numberSource (negative : Bool) (whole : List Char) (fraction : Option (List Char))
    (exponent : Option Int) : Source :=
  let (n, surplus) := significandFrom 0 whole
  match fraction, exponent, surplus with
  | none, none, [] =>
    if negative then
      if n ≠ 0 ∧ InInt64 (-(n : Int)) then .integer (-(n : Int))
      else .float (-n.toUInt64.toFloat)
    else .integer n
  | _, _, _ =>
    let after := fraction.getD []
    let (m, ignored) := significandFrom n after
    let shift : Int := (surplus.length : Int) - ((after.length - ignored.length : Nat) : Int)
    floatSource negative m shift exponent

/-- The fraction at the front: `none` where the point has no digits after it. -/
def scanFraction : List Char → Option (Option (List Char) × List Char)
  | '.' :: cs =>
    let (ds, rest) := Digits.split cs
    if ds = [] then none else some (some ds, rest)
  | cs => some (none, cs)

/-- A number, from after its sign. -/
def scanNumber (negative : Bool) (cs : List Char) : Source × Rest :=
  let (whole, rest) := Digits.split cs
  if whole = [] ∨ (whole.head? = some '0' ∧ 1 < whole.length) then (.broken, none)
  else
    match scanFraction rest with
    | none => (.broken, none)
    | some (fraction, rest) =>
      match Digits.exponent rest with
      | none => (.broken, none)
      | some (exponent, rest) => (numberSource negative whole fraction exponent, some rest)

/-! ## Values -/

mutual

/-- The value at the front of a text. -/
def scanValue : Nat → List Char → Source × Rest
  | 0, _ => (.broken, none)
  | fuel + 1, cs =>
    match skipBlanks cs with
    | 'n' :: 'u' :: 'l' :: 'l' :: rest => (.null, some rest)
    | 't' :: 'r' :: 'u' :: 'e' :: rest => (.bool true, some rest)
    | 'f' :: 'a' :: 'l' :: 's' :: 'e' :: rest => (.bool false, some rest)
    | '\"' :: rest => stringSource (scanString rest)
    | '[' :: rest =>
      let (items, k) := scanItems fuel true rest
      (.array items, k)
    | '{' :: rest =>
      let (members, k) := scanMembers fuel true rest
      (.object members, k)
    | '-' :: rest => scanNumber true rest
    | c :: rest => if c.isDigit then scanNumber false (c :: rest) else (.broken, none)
    | [] => (.broken, none)

/-- The items of an array, after its bracket or after a comma. -/
def scanItems : Nat → Bool → List Char → List Source × Rest
  | 0, _, _ => ([.broken], none)
  | fuel + 1, first, cs =>
    match first, skipBlanks cs with
    | true, ']' :: rest => ([], some rest)
    | _, cs =>
      match scanValue fuel cs with
      | (v, none) => ([v], none)
      | (v, some rest) =>
        match skipBlanks rest with
        | ',' :: rest =>
          let (items, k) := scanItems fuel false rest
          (v :: items, k)
        | ']' :: rest => ([v], some rest)
        | _ => ([v, .broken], none)

/-- The members of an object, after its brace or after a comma. -/
def scanMembers : Nat → Bool → List Char → List (Source × Source) × Rest
  | 0, _, _ => ([(.broken, .broken)], none)
  | fuel + 1, first, cs =>
    match first, skipBlanks cs with
    | true, '}' :: rest => ([], some rest)
    | _, cs =>
      match scanValue fuel cs with
      | (k, none) => ([(k, .broken)], none)
      | (k, some rest) =>
        match k.isString, skipBlanks rest with
        | true, ':' :: rest =>
          match scanValue fuel rest with
          | (v, none) => ([(k, v)], none)
          | (v, some rest) =>
            match skipBlanks rest with
            | ',' :: rest =>
              let (members, r) := scanMembers fuel false rest
              ((k, v) :: members, r)
            | '}' :: rest => ([(k, v)], some rest)
            | _ => ([(k, v), (.broken, .broken)], none)
        | _, _ => ([(k, .broken)], none)

end

/-- The document that characters spell. -/
def scanChars (cs : List Char) : Document :=
  match scanValue (2 * cs.length + 2) cs with
  | (root, none) => { root, complete := false }
  | (root, some rest) => { root, complete := (skipBlanks rest).isEmpty }

/-- The document that a text spells. -/
def scan (text : String) : Document := scanChars text.toList

end MessageCache.Json
