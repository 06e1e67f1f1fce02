/-
# Links — connections to a database file

Beside a database file there may be a journal, a write-ahead log, and an index
of that log.  A link reads and writes the file itself until it goes over to the
log, which is for good.
-/
import MessageCache.Storage.Basic
import MessageCache.Storage.Location

namespace MessageCache

/-- How links to one file take turns. -/
inductive Sharing where
  /-- Through locks, which other processes see as well. -/
  | full
  /-- Through locks, after shutting other processes out. -/
  | exclusive
  /-- Through files, which does not do for a log. -/
  | files
  /-- Not at all. -/
  | none
deriving DecidableEq

/-- The links can share a log. -/
def Sharing.allowsLog : Sharing → Bool
  | .full | .exclusive => true
  | .files | .none => false

/-- What a link to a log has read: some pages, which are good as long as no one
else puts changes into the log. -/
structure Memory where
  /-- The number of changes that had been put into the log. -/
  commits : Nat
  pages : List PageName
  /-- Pages with something else on them. -/
  strange : List PageName

/-- Nothing that was read. -/
def Memory.none : Memory := { commits := 0, pages := [], strange := [] }

structure FileLink where
  path : Path
  fileSystem : FileSystem
  readOnly : Bool
  immutable : Bool
  /-- The link takes no locks. -/
  unlocked : Bool
  /-- The link does not write an index of the log. -/
  indexReadOnly : Bool
  /-- What the link has read of the file itself, and the stamp of the database that
  was there at that time or before. -/
  read : Option (Database.Stamp × FileContent)
  /-- The link has the log open. -/
  attached : Bool
  /-- The link has the index of the log. -/
  indexed : Bool
  /-- What the link has read since. -/
  memory : Memory

namespace FileLink

/-- A link to a file, as a location describes it. -/
def ofLocation (l : Location) (path : Path) : FileLink :=
  { path, fileSystem := l.fileSystem, readOnly := l.access = .read, immutable := l.immutable
    unlocked := l.unlocked, indexReadOnly := l.indexReadOnly, read := none, attached := false
    indexed := false, memory := .none }

/-- The file for what a change has to be able to undo. -/
def journal (l : FileLink) : Path := l.path.beside "-journal"

/-- The write-ahead log. -/
def log (l : FileLink) : Path := l.path.beside "-wal"

/-- The index of the log. -/
def index (l : FileLink) : Path := l.path.beside "-shm"

/-- What stands in the way of links that take turns through files. -/
def lockFile (l : FileLink) : Path := l.path.beside ".lock"

/-- How the link takes turns.  To shut others out is to write. -/
def sharing (l : FileLink) : Sharing :=
  if l.unlocked then .none
  else
    match l.fileSystem with
    | .unlocked => .none
    | .lockFiles => .files
    | .exclusive => if l.readOnly then .full else .exclusive
    | .standard | .memory => .full

/-- The link counts as one that locks the file. -/
def isCounted (l : FileLink) : Bool :=
  match l.fileSystem with
  | .standard | .exclusive => true
  | .unlocked | .lockFiles | .memory => false

/-! ## The database -/

/-- The most bytes in a file that is taken for a new database. -/
def mostBlank : Nat := 1

/-- The file has no database in it yet. -/
def isBlank (l : FileLink) (s : Files) : Bool :=
  match s.disk.content? l.path with
  | none => true
  | some (.text b) => b.length ≤ mostBlank
  | some _ => false

/-- There is a database in the file. -/
def isSound (l : FileLink) (s : Files) : Bool :=
  match s.disk.content? l.path with
  | some (.database _ _) => true
  | _ => false

/-- The number of bytes in a page of a file. -/
def pageSize : Nat := 0x1000

/-- The first page of a database that is not there yet. -/
def blankPage : FileContent := .text (List.replicate pageSize 0)

/-- The link after it has looked at the file.  What it has read is good for as long
as the file has the same stamp. -/
def refresh (l : FileLink) (s : Files) : FileLink :=
  match s.disk.content? l.path with
  | some (.database db wal) =>
    if l.read.any fun r => r.1 = db.stamp then l
    else { l with read := some (db.stamp, .database db wal) }
  | _ =>
    if l.isBlank s then { l with read := l.read.map fun r => (r.1, blankPage) }
    else { l with read := none }

/-- The content of the file for the link: what it has read, if that is good. -/
def content? (l : FileLink) (s : Files) : Option FileContent :=
  match s.disk.content? l.path, l.read with
  | some (.database db wal), some (stamp, content) =>
    some (if db.stamp = stamp then content else .database db wal)
  | content?, _ => content?

/-- Write-ahead logging was switched on for the file. -/
def walOn (l : FileLink) (s : Files) : Bool :=
  match l.content? s with
  | some (.database _ wal) => wal
  | _ => false

/-- The database in the file. -/
def stored (l : FileLink) (s : Files) : Except Fault Database :=
  match l.content? s with
  | some (.database db _) => .ok db
  | _ => if l.isBlank s then .ok .empty else .error .notADatabase

/-- What the log holds for whoever opens it: nothing that begins with something
else. -/
def logged? (l : FileLink) (s : Files) : Option LoggedChanges :=
  match s.disk.content? l.log with
  | some (.log changes) => if changes.lost.isEmpty then some changes else none
  | _ => none

/-- The database that the link leads to.  One that works with a log has seen the
file before, and finds it damaged if it is no database any more. -/
def database (l : FileLink) (s : Files) : Except Fault Database :=
  if l.attached then
    match (s.use l.path).changed, s.disk.content? l.path with
    | some changes, _ => .ok changes.database
    | none, some (.database db _) => .ok db
    | none, _ => .error .malformed
  else l.stored s

end FileLink

end MessageCache
