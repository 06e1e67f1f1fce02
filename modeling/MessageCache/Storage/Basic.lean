/-
# Files — what connections find outside of themselves

Beside the disk these are the databases in memory that have a name, and a record
of how each database file is being used: by how many connections, and by how many
of them through a write-ahead log.  The last one to leave the log puts the changes
in it where they belong.
-/
import MessageCache.Disk.Directory

namespace MessageCache

/-- Where connections keep the index of a write-ahead log. -/
inductive LogIndex where
  /-- In the memory that they share. -/
  | inMemory
  /-- In a file. -/
  | inFile
  /-- In a file that they only read, so that nothing can be added to the log. -/
  | readOnly
deriving DecidableEq

/-- How a database file is used. -/
structure FileUse where
  /-- The number of connections that lock the file with the help of the system. -/
  links : Nat
  /-- One of them wants to be the only process that uses the file. -/
  exclusive : Bool
  /-- The openings of the file that connections which are gone have left behind,
  each with whether it is for reading only.  Another connection can take one. -/
  spare : List Bool
  /-- The number of connections that have the write-ahead log open. -/
  users : Nat
  /-- The number of those that have its index, too. -/
  readers : Nat
  /-- Where the index is, as long as someone has it. -/
  index : LogIndex
  /-- The number of changes that were put into a log. -/
  commits : Nat
  /-- The changes in the log, if there are any.  The readers keep them even if
  something happens to the file that is the log. -/
  changed : Option LoggedChanges

namespace FileUse

/-- Nobody uses the file. -/
def none : FileUse :=
  { links := 0, exclusive := false, spare := [], users := 0, readers := 0, index := .inFile
    commits := 0, changed := Option.none }

/-- One more connection. -/
def opened (u : FileUse) : FileUse := { u with links := u.links + 1 }

/-- After an opening that was left behind was taken, if there was one. -/
def reused (u : FileUse) (readOnly : Bool) : FileUse := { u with spare := u.spare.erase readOnly }

/-- There are locks on the file at any time. -/
def isLocked (u : FileUse) : Bool := u.users ≠ 0 || u.exclusive

/-- One connection less.  While there are locks on the file, it cannot be closed
without losing them, and the opening is left behind.  The wish to be alone ends
with the last connection. -/
def closed (u : FileUse) (readOnly : Bool) : FileUse :=
  { u with
    links := u.links - 1
    exclusive := u.exclusive && 1 < u.links
    spare := if u.isLocked && 1 < u.links then readOnly :: u.spare else [] }

end FileUse

/-- A database in memory that has a name. -/
structure NamedDatabase where
  database : Database
  /-- The number of connections to it. -/
  users : Nat

structure Files where
  disk : Disk
  use : Path → FileUse
  named : Bytes → Option NamedDatabase

namespace Files

/-- No files, no databases, no connections. -/
def empty : Files := { disk := .empty, use := fun _ => .none, named := fun _ => none }

/-- The files with another content of one of them. -/
def setFile (s : Files) (p : Path) (content : FileContent) : Files :=
  { s with disk := s.disk.setFile p content }

/-- The files with one at a path, an empty one if there was nothing. -/
def touch (s : Files) (p : Path) : Files :=
  if (s.disk.node p).isNone then s.setFile p (.text []) else s

/-- The files without the one at a path; a directory stays. -/
def removeFile (s : Files) (p : Path) : Files :=
  if (s.disk.content? p).isSome then { s with disk := s.disk.set p none } else s

def setUse (s : Files) (p : Path) (u : FileUse) : Files :=
  { s with use := fun q => if q = p then u else s.use q }

def setNamed (s : Files) (name : Bytes) (d : Option NamedDatabase) : Files :=
  { s with named := fun n => if n = name then d else s.named n }

end Files

end MessageCache
