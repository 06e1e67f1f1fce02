/-
# The disk — directories and files

Of the content of a file only what opening a cache can tell apart is kept: a
text as it was written, a database, or a log of changes to the database beside
it.  `walk` follows names from one directory to the next, and everything that a
path means comes down to it.
-/
import MessageCache.Disk.Path
import MessageCache.Table.Basic

namespace MessageCache

/-- The changes in a write-ahead log. -/
structure LoggedChanges where
  /-- The database with the changes. -/
  database : Database
  /-- The pages that are in the log.  All others are in the file. -/
  pages : List PageName
  /-- Those of them that something else was written over. -/
  lost : List PageName

/-- The content of a file. -/
inductive FileContent where
  | text (b : Bytes)
  /-- A database, and whether write-ahead logging was switched on for it, which
  lasts. -/
  | database (db : Database) (wal : Bool)
  /-- A write-ahead log. -/
  | log (changes : LoggedChanges)

/-- Nothing is in the file. -/
def FileContent.isEmpty : FileContent → Bool
  | .text b => b.isEmpty
  | _ => false

/-- What a path leads to. -/
inductive Node where
  | directory
  | file (content : FileContent)

structure Disk where
  node : Path → Option Node

namespace Disk

/-- The working directory. -/
def home : Path := [Utf8.bytes "tmp", Utf8.bytes "cache-home"]

/-- Nothing but the working directory and those above it. -/
def empty : Disk := { node := fun p => if p.isPrefixOf home then some .directory else none }

/-- The disk with something put at a path, or nothing there any more.  Paths of
different length are told apart at once. -/
def set (disk : Disk) (p : Path) (n : Option Node) : Disk :=
  let depth := p.length
  { node := fun q => if q.length = depth ∧ q = p then n else disk.node q }

@[simp] theorem node_set (disk : Disk) (p : Path) (n : Option Node) (q : Path) :
    (disk.set p n).node q = if q = p then n else disk.node q := by
  by_cases h : q = p <;> simp [set, h]

/-- The disk with a file at a path. -/
def setFile (disk : Disk) (p : Path) (content : FileContent) : Disk :=
  disk.set p (some (.file content))

def isDirectory (disk : Disk) (p : Path) : Bool :=
  match disk.node p with
  | some .directory => true
  | _ => false

/-- The content of the file at a path, if there is a file. -/
def content? (disk : Disk) (p : Path) : Option FileContent :=
  match disk.node p with
  | some (.file content) => some content
  | _ => none

/-! ## Walking -/

/-- Why a path leads nowhere. -/
inductive WalkFault where
  | notFound
  | notADirectory
  | nameTooLong
  | nulByte
deriving DecidableEq

/-- The path that names lead to from another one, every name but the last being
that of a directory. -/
def walk (disk : Disk) (here : Path) : List FileName → Except WalkFault Path
  | [] => .ok here
  | n :: ns =>
    match disk.node here with
    | none => .error .notFound
    | some (.file _) => .error .notADirectory
    | some .directory =>
      if n.stays then walk disk here ns
      else if n = FileName.dots then walk disk here.dropLast ns
      else if FileName.longest < n.length then .error .nameTooLong
      else walk disk (here ++ [n]) ns

/-- Where a route starts. -/
def origin (r : Route) : Path := if r.absolute then [] else home

/-- The path that a route leads to.  There need not be anything at its end. -/
def follow (disk : Disk) (r : Route) : Except WalkFault Path :=
  if r.names.any (0 ∈ ·) then .error .nulByte
  else if Route.longest < r.size then .error .nameTooLong
  else disk.walk (origin r) r.names

/-- There is something at the end of a written path; the empty one leads
nowhere. -/
def exists? (disk : Disk) (path : Bytes) : Bool :=
  match disk.follow (.ofBytes path) with
  | .ok p => !path.isEmpty && (disk.node p).isSome
  | .error _ => false

end Disk

end MessageCache
