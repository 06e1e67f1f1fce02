/-
# Locations — what the name of a database means

Most names are those of files, one is that of a database in memory, and the
empty name is that of a temporary database.  A name that begins with `file:` is
a location with parameters: an authority, which can only be this machine, a path
up to a question mark, and parameters between ampersands, each a name and a
value with an equality sign between them.  A hash sign ends all of it.  The
parts are separated first and decoded then, so that an encoded separator does
not separate.
-/
import MessageCache.Table.Basic
import MessageCache.Text.Hex
import MessageCache.Text.Split

namespace MessageCache

/-- What a connection asks to do with its database, from the least to the most
but for the last, which asks for a database in memory. -/
inductive AccessMode where
  | read
  | write
  /-- Write, and create the database if it is missing. -/
  | create
  | memory
deriving DecidableEq

namespace AccessMode

def rank : AccessMode → Nat
  | .read => 0
  | .write => 1
  | .create => 2
  | .memory => 3

/-- Whoever has the mode `current` can take on this one. -/
def allowed (current : AccessMode) (m : AccessMode) : Bool :=
  m = .memory || m.rank ≤ current.rank

end AccessMode

/-- The ways of working with files that a location can choose from. -/
inductive FileSystem where
  | standard
  /-- Without locks. -/
  | unlocked
  /-- With files for locks. -/
  | lockFiles
  /-- With one lock for as long as there is a connection. -/
  | exclusive
  /-- Without files: what is written stays in memory. -/
  | memory
deriving DecidableEq

/-- A location taken apart. -/
structure Location where
  path : Bytes
  access : AccessMode
  /-- Connections of this process share what they have loaded. -/
  shared : Bool
  fileSystem : FileSystem
  /-- Nobody changes the file. -/
  immutable : Bool
  /-- No locks are taken. -/
  unlocked : Bool
  /-- The index of a write-ahead log is only read. -/
  indexReadOnly : Bool
  /-- The file that a new one takes its permissions from. -/
  model : Option Bytes

namespace Location

/-- The location that a name without parameters means. -/
def ofPath (path : Bytes) : Location :=
  { path, access := .create, shared := false, fileSystem := .standard, immutable := false
    unlocked := false, indexReadOnly := false, model := none }

/-! ## Decoding -/

/-- The value of a hexadecimal digit among bytes. -/
def hexByte (b : UInt8) : Option Nat := Text.hexValue (Char.ofNat b.toNat)

/-- A part of a location with the bytes that are written as a percent sign and
two digits; a zero byte ends the part. -/
def decode : Bytes → Bytes
  | 0x25 :: a :: b :: rest =>
    match hexByte a, hexByte b with
    | some high, some low =>
      if high = 0 ∧ low = 0 then [] else UInt8.ofNat (16 * high + low) :: decode rest
    | _, _ => 0x25 :: decode (a :: b :: rest)
  | x :: rest => x :: decode rest
  | [] => []

/-- What stands before the first mark and what stands after it. -/
def cut (mark : UInt8) (b : Bytes) : Bytes × Bytes :=
  (b.takeWhile (· ≠ mark), (b.dropWhile (· ≠ mark)).drop 1)

/-- The parameters of a query, without those that have no name. -/
def parameters (query : Bytes) : List (Bytes × Bytes) :=
  let decoded := (Text.split 0x26 query).map fun p =>
    let (name, value) := cut 0x3D p
    (decode name, decode value)
  decoded.filter fun p => !p.1.isEmpty

/-! ## Parameters -/

/-- The greatest number that a flag can be written as. -/
def greatestFlag : Nat := 0x7FFFFFFF

/-- The number that digits in base sixteen spell. -/
def hexNumber (digits : List Nat) : Nat := digits.foldl (fun n d => 16 * n + d) 0

/-- The number that bytes begin with, in base ten, or in base sixteen after a zero
and an x. -/
def leadingNumber? (b : Bytes) : Option Nat :=
  let digits := b.takeWhile fun b => 0x30 ≤ b && b ≤ 0x39
  if digits.isEmpty then none
  else
    match b with
    | 0x30 :: x :: rest =>
      match (rest.map hexByte).takeWhile Option.isSome with
      | [] => some (decimal digits)
      | hex =>
        if x = 0x78 ∨ x = 0x58 then some (hexNumber (hex.map (·.getD 0))) else some (decimal digits)
    | _ => some (decimal digits)
where
  decimal (digits : Bytes) : Nat := Digits.toNat (digits.map fun b => Char.ofNat b.toNat)

/-- A parameter that is a flag: a word for it, or a number whose last eight bits
are not all zero. -/
def isOn (value : Bytes) : Bool :=
  match leadingNumber? value with
  | none => nameKey ((Utf8.read value).toOption.getD "") ∈ ["on", "yes", "true"]
  | some n => n ≤ greatestFlag && n % 256 ≠ 0

/-- The first value of a parameter. -/
def first? (name : String) (parameters : List (Bytes × Bytes)) : Option Bytes :=
  (parameters.find? fun p => p.1 = Utf8.bytes name).map (·.2)

def flag (name : String) (parameters : List (Bytes × Bytes)) : Bool :=
  (first? name parameters).any isOn

def accessMode? (value : Bytes) : Option AccessMode :=
  ([("ro", .read), ("rw", .write), ("rwc", .create), ("memory", .memory)].find? fun m =>
    Utf8.bytes m.1 = value).map (·.2)

def sharing? (value : Bytes) : Option Bool :=
  ([("shared", true), ("private", false)].find? fun m => Utf8.bytes m.1 = value).map (·.2)

def fileSystem? (value : Bytes) : Option FileSystem :=
  ([("unix", .standard), ("unix-none", .unlocked), ("unix-dotfile", .lockFiles),
    ("unix-excl", .exclusive), ("memdb", .memory)].find? fun m => Utf8.bytes m.1 = value).map (·.2)

/-- The location with one more parameter taken into account. -/
def withParameter (l : Location) (p : Bytes × Bytes) : Except Fault Location :=
  if p.1 = Utf8.bytes "cache" then
    match sharing? p.2 with
    | none => .error (.noSuchMode "cache" (Utf8.mended p.2))
    | some shared => .ok { l with shared }
  else if p.1 = Utf8.bytes "mode" then
    match accessMode? p.2 with
    | none => .error (.noSuchMode "access" (Utf8.mended p.2))
    | some access =>
      if l.access.allowed access then .ok { l with access }
      else .error (.modeNotAllowed "access" (Utf8.mended p.2))
  else .ok l

/-- The file system that the last parameter of that name chooses. -/
def chosenFileSystem (parameters : List (Bytes × Bytes)) : Except Fault FileSystem :=
  match first? "vfs" parameters.reverse with
  | none => .ok .standard
  | some value =>
    match fileSystem? value with
    | none => .error (.noSuchFileSystem (Utf8.mended value))
    | some fileSystem => .ok fileSystem

/-! ## Reading -/

/-- What a location begins with. -/
def scheme : Bytes := Utf8.bytes "file:"

/-- A location without its authority, which has to be this machine. -/
def withoutAuthority (b : Bytes) : Except Fault Bytes :=
  match b with
  | 0x2F :: 0x2F :: rest =>
    let authority := rest.takeWhile (· ≠ 0x2F)
    if authority = [] ∨ authority = Utf8.bytes "localhost" then .ok (rest.dropWhile (· ≠ 0x2F))
    else .error (.invalidAuthority (Utf8.mended authority))
  | b => .ok b

/-- The location that a name means. -/
def parse (name : Bytes) : Except Fault Location := do
  if !scheme.isPrefixOf name then return .ofPath name
  let rest ← withoutAuthority (name.drop scheme.length)
  let (path, query) := cut 0x3F (cut 0x23 rest).1
  let parameters := parameters query
  let l ← parameters.foldlM withParameter (.ofPath (decode path))
  let fileSystem ← chosenFileSystem parameters
  return { l with
    fileSystem
    immutable := flag "immutable" parameters
    unlocked := flag "nolock" parameters
    indexReadOnly := flag "readonly_shm" parameters
    model := first? "modeof" parameters }

end Location

end MessageCache
