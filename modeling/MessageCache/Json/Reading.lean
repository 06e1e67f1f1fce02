/-
# Reading — typed values out of sources

A reader takes a source and gives a value or the first problem it meets.  A
`malformed` problem is one of the text, where it stops being JSON; all others
are JSON that does not fit the type, and their text says how.

Some types are read from a text as it stands, others from a value that has been
read before; `Origin` says which, since the two report a few problems
differently.
-/
import MessageCache.Json.Source
import MessageCache.Number.Notation
import MessageCache.Number.Range
import MessageCache.Text.Quoted

namespace MessageCache.Json

/-- Why a typed value could not be read. -/
inductive Problem where
  /-- The text is not JSON, or not JSON of this shape. -/
  | malformed
  /-- The JSON does not fit the type. -/
  | unfit (text : String)
deriving DecidableEq

/-- Where a source comes from. -/
inductive Origin where
  /-- A text, read from left to right. -/
  | document
  /-- A value that was read before. -/
  | value
deriving DecidableEq

namespace Source

/-- What a source is, in the words of a problem; `none` for one that breaks. -/
def described : Source → Option String
  | .null => some "null"
  | .bool b => some s!"boolean `{b}`"
  | .integer n => some s!"integer `{n}`"
  | .float x => some s!"floating point `{(Binary64.ofFloat x).quotation}`"
  | .text s => some s!"string {Text.quoted s}"
  | .array _ => some "sequence"
  | .object _ => some "map"
  | .beyondRange => none
  | .unpaired => none
  | .broken => none

/-- The problem of a source where something else is expected. -/
def mismatch (s : Source) (expected : String) : Problem :=
  match s.described with
  | some found => .unfit s!"invalid type: {found}, expected {expected}"
  | none => .malformed

end Source

/-- An integer outside the range of its type. -/
def outOfRange (n : Int) (expected : String) : Problem :=
  .unfit s!"invalid value: integer `{n}`, expected {expected}"

def readText : Source → Except Problem String
  | .text s => .ok s
  | s => .error (s.mismatch "a string")

def readInt64 : Source → Except Problem Int64
  | .integer n =>
    if InInt64 n then .ok (Int64.ofInt n) else .error (outOfRange n "i64")
  | s => .error (s.mismatch "i64")

def readUInt64 : Source → Except Problem UInt64
  | .integer n =>
    if InUInt64 n then .ok (UInt64.ofNat n.toNat) else .error (outOfRange n "u64")
  | s => .error (s.mismatch "u64")

def readUInt8 : Source → Except Problem UInt8
  | .integer n =>
    if InUInt8 n then .ok (UInt8.ofNat n.toNat) else .error (outOfRange n "u8")
  | s => .error (s.mismatch "u8")

def readNull : Source → Except Problem Unit
  | .null => .ok ()
  | s => .error (s.mismatch "unit")

/-- Every item in order, up to the first problem. -/
def readItems (read : Source → Except Problem α) : List Source → Except Problem (List α)
  | [] => .ok []
  | s :: rest => do
    let a ← read s
    let as ← readItems read rest
    return a :: as

def readTexts : Source → Except Problem (List String)
  | .array items => readItems readText items
  | s => .error (s.mismatch "a sequence")

/-- A value that null leaves out. -/
def readOptional (read : Source → Except Problem α) : Source → Except Problem (Option α)
  | .null => .ok none
  | s => some <$> read s

/-- A document read as a type: problems inside the value come before whatever
follows it. -/
def Document.read (read : Source → Except Problem α) (d : Document) : Except Problem α := do
  let a ← read d.root
  if d.complete then return a else throw .malformed

end MessageCache.Json
