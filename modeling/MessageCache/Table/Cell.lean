/-
# Cells — what a column of a row can hold

A cell is of one of five storage classes, whatever the column was declared as.
Cells are ordered by class first (null, numbers, text, blobs) and inside a class
by value; integers and reals are compared exactly, as multiples of the smallest
positive real, and bytes one by one.

Any two cells are in order, one way or the other or, if they are equal numbers of the
two numeric classes, both: `le_total`.
-/
import MessageCache.Text.Utf8
import MessageCache.Number.Notation
import MessageCache.Number.Range

namespace MessageCache

inductive Cell where
  | null
  | integer (n : Int64)
  | real (x : Binary64)
  /-- Text as bytes, which need not be UTF-8. -/
  | text (b : Bytes)
  | blob (b : Bytes)
deriving DecidableEq

/-- The classes of cells. -/
inductive StorageClass where
  | null
  | integer
  | real
  | text
  | blob
deriving DecidableEq

def StorageClass.name : StorageClass → String
  | .null => "Null"
  | .integer => "Integer"
  | .real => "Real"
  | .text => "Text"
  | .blob => "Blob"

namespace Cell

def storageClass : Cell → StorageClass
  | .null => .null
  | .integer _ => .integer
  | .real _ => .real
  | .text _ => .text
  | .blob _ => .blob

/-- A text as a cell. -/
def ofString (s : String) : Cell := .text (Utf8.bytes s)

/-- A flag as a cell. -/
def ofBool (b : Bool) : Cell := .integer (if b then 1 else 0)

/-- A real number as a cell; no cell holds a value that is no number. -/
def ofReal (x : Binary64) : Cell := if x.isNaN then .null else .real x

/-! ## Order -/

/-- The place of a cell's class in the order. -/
def rank : Cell → Nat
  | .null => 0
  | .integer _ => 1
  | .real _ => 1
  | .text _ => 2
  | .blob _ => 3

/-- The number in a cell as a multiple of `2 ^ -1074`. -/
def magnitude : Cell → Int
  | .integer n => n.toInt * Binary64.unit
  | .real x => x.scaled
  | _ => 0

/-- The bytes in a cell. -/
def content : Cell → Bytes
  | .text b => b
  | .blob b => b
  | _ => []

/-- The order of cells: by class, then by number, then by bytes. -/
def le (a b : Cell) : Bool :=
  a.rank < b.rank ||
    (a.rank = b.rank &&
      (a.magnitude < b.magnitude || (a.magnitude = b.magnitude && a.content ≤ b.content)))

/-- Neither cell comes before the other. -/
def same (a b : Cell) : Bool := a.le b && b.le a

theorem le_total (a b : Cell) : a.le b = true ∨ b.le a = true := by
  simp only [le, Bool.or_eq_true, Bool.and_eq_true, decide_eq_true_eq]
  have h := List.le_total a.content b.content
  rcases Nat.lt_trichotomy a.rank b.rank with hr | hr | hr
  · exact .inl (.inl hr)
  · rcases Int.lt_trichotomy a.magnitude b.magnitude with hm | hm | hm
    · exact .inl (.inr ⟨hr, .inl hm⟩)
    · rcases h with h | h
      · exact .inl (.inr ⟨hr, .inr ⟨hm, h⟩⟩)
      · exact .inr (.inr ⟨hr.symm, .inr ⟨hm.symm, h⟩⟩)
    · exact .inr (.inr ⟨hr.symm, .inl hm⟩)
  · exact .inr (.inl hr)

end Cell

/-! ## Affinity -/

/-- What a column turns the cells put into it into, where that loses nothing. -/
inductive Affinity where
  | integer
  | text
deriving DecidableEq

namespace Affinity

/-- Blanks allowed around a number in a text cell. -/
def isBlank (b : UInt8) : Bool := b = 0x20 || (0x09 ≤ b && b ≤ 0x0D)

/-- The characters of bytes, one for each: enough to read numbers, which are in
the first half of them. -/
def latin (b : Bytes) : List Char := b.map fun x => Char.ofNat x.toNat

/-- The bytes without the blanks at both ends. -/
def trimmed (b : Bytes) : Bytes :=
  ((b.dropWhile isBlank).reverse.dropWhile isBlank).reverse

/-- A real number as a cell of an integer column: as an integer if it is one
strictly inside the range of integers. -/
def integerOfReal (x : Binary64) : Cell :=
  match x.toInt? with
  | some n => if InInt64 (n - 1) ∧ InInt64 (n + 1) then .integer (Int64.ofInt n) else .real x
  | none => .real x

/-- A text as a cell of an integer column: as the number that the whole of it
spells, if it spells one. -/
def integerOfText (b : Bytes) : Cell :=
  match Decimal.read? (latin (trimmed b)) with
  | none => .text b
  | some w =>
    let n : Int := w.value.digits
    let n := if w.value.negative then -n else n
    if w.whole ∧ InInt64 n then .integer (Int64.ofInt n)
    else integerOfReal w.value.columnValue

/-- A cell as a column of this affinity holds it. -/
def apply : Affinity → Cell → Cell
  | .integer, .real x => integerOfReal x
  | .integer, .text b => integerOfText b
  | .text, .integer n => .ofString (toString n.toInt)
  | .text, .real x => .ofString x.columnText
  | _, c => c

/-- The number that a text begins with, after blanks. -/
def leadingNumber (b : Bytes) : Binary64 :=
  (Decimal.readPrefix (latin (b.dropWhile isBlank))).columnValue

@[simp] theorem apply_integer_integer (n : Int64) : apply .integer (.integer n) = .integer n := rfl

end Affinity

/-- The cell as a number: that which its bytes begin with, if it is bytes. -/
def Cell.number : Cell → Binary64
  | .null => .zero false
  | .integer n => .ofFloat (Float.ofInt n.toInt)
  | .real x => x
  | .text b => Affinity.leadingNumber b
  | .blob b => Affinity.leadingNumber b

end MessageCache
