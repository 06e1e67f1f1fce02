/-
# Leaving — how links go

The last link to leave the log puts the changes in it into the database file and
removes it, and the index with it.  If something else was written over the log,
what is there goes into the file as far as it lasts, and the log stays unless it
lasts for all of it.
-/
import MessageCache.Storage.FileLink.Log

namespace MessageCache.FileLink

/-- The changes in the log put into the file.  Without a first page that does not
make it a database. -/
def checkpoint (l : FileLink) (s : Files) : Files :=
  match (s.use l.path).changed with
  | none => s
  | some changes =>
    let first : Bool := .first ∈ changes.pages
    if .first ∈ changes.lost then s.setFile l.path blankPage
    else if first || l.isSound s then
      s.setFile l.path (.database changes.database (first || l.walOn s))
    else if l.isBlank s then s.setFile l.path blankPage
    else s

/-- The files without the log and its index. -/
def removeLog (l : FileLink) (s : Files) : Files :=
  let inFile := (s.use l.path).index = .inFile
  let s := s.removeFile l.log
  if inFile then s.removeFile l.index else s

/-- The number of bytes in a log that is taken to have every page. -/
def longLog : Nat := 0x10000

/-- A log that was overwritten put into the file, page by page as far as there is
something in place of a page. -/
def closeOverwritten (l : FileLink) (s : Files) (b : Bytes) : Files :=
  if b.length < leastLog || (l.lostFirst? s).isNone then s
  else
    let s := s.setFile l.path blankPage
    if b.length < longLog then s else l.removeLog s

/-- The files after the last link has left the log. -/
def closeLog (l : FileLink) (s : Files) : Files :=
  if l.readOnly || !l.indexed || l.isUnindexed s then s
  else
    match l.overwriting? s with
    | some b => l.closeOverwritten s b
    | none => l.removeLog (l.checkpoint s)

/-- The files after the link has left the log. -/
def leave (l : FileLink) (s : Files) : Files :=
  if !l.attached then s
  else
    let s := if 1 < (s.use l.path).users then s else l.closeLog (l.shutOut s)
    let use := s.use l.path
    let readers := if l.indexed then use.readers - 1 else use.readers
    s.setUse l.path { use with users := use.users - 1, readers }

/-- The files after the link has gone. -/
def release (l : FileLink) (s : Files) : Files :=
  let s := l.leave s
  if l.isCounted then s.setUse l.path ((s.use l.path).closed l.readOnly) else s

end MessageCache.FileLink
