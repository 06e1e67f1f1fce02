/-
# Changes — how a link writes

A change goes to where the link leads: into the log, or into the file itself,
for which there has to be a place for a journal, and nobody who works with a
log.
-/
import MessageCache.Storage.FileLink.Leave
import MessageCache.Table.Transaction

namespace MessageCache.FileLink

/-- There is a place for the journal that a change needs. -/
def canJournal (l : FileLink) (s : Files) : Bool :=
  l.journal.isNameable && !s.disk.isDirectory l.journal

/-- Others work with a log and keep this link, which does not, from writing. -/
def isLockedOut (l : FileLink) (s : Files) : Bool :=
  l.sharing.allowsLog && (s.use l.path).users ≠ 0

def access (l : FileLink) (s : Files) : WriteAccess :=
  if l.readOnly || l.immutable then .refused
  else if l.attached then if l.isUnindexed s then .refused else .granted
  else if !l.canJournal s then .blocked (.cannotOpen none)
  else if l.isLockedOut s then .blocked .locked
  else .granted

/-- The count of changes that the link goes on from: that of the last database that
it has seen in the file. -/
def writes (l : FileLink) : Nat := (l.read.map (·.1.writes)).getD 0

/-- A changed database put into the file itself. -/
def storeDirectly (l : FileLink) (s : Files) (db : Database) (wal : Bool) : Files :=
  (s.setFile l.path (.database { db with writes := l.writes + 1 } wal)).removeFile l.journal

/-- The count of changes in the file. -/
def storedWrites (l : FileLink) (s : Files) : Nat :=
  match s.disk.content? l.path with
  | some (.database db _) => db.writes
  | _ => 0

/-- What is in the log once a changed database was put there by writing some pages.
In a log that was overwritten they come after what is lost. -/
def logging (l : FileLink) (s : Files) (db : Database) (pages : List PageName) :
    LoggedChanges :=
  let before := (s.use l.path).changed
  let logged := (before.map (·.pages)).getD []
  let lost := if (l.overwriting? s).isSome then logged else (before.map (·.lost)).getD []
  { database := if .first ∈ pages then { db with writes := l.storedWrites s + 1 } else db
    pages := (logged ++ pages).eraseDups
    lost := lost.filter fun p => p ∉ pages }

/-- A changed database put into the log by writing some pages. -/
def storeLogged (l : FileLink) (s : Files) (db : Database) (pages : List PageName) : Files :=
  let use := s.use l.path
  let changes := l.logging s db pages
  let after := s.setUse l.path { use with changed := some changes, commits := use.commits + 1 }
  if (s.disk.content? l.log).isNone then after else after.setFile l.log (.log changes)

/-- A changed database put to where the link leads, and the link after that.  Of some
pages those are written to the log that are not as before, if there are any. -/
def store (l : FileLink) (s : Files) (db : Database) (pages : List PageName) :
    FileLink × Files :=
  if l.attached then
    match l.database s with
    | .error _ => (l, s)
    | .ok before =>
      let written := ((.first :: pages).filter (before.differs db)).eraseDups
      if written.isEmpty then (l, s)
      else
        let s := l.storeLogged s db written
        let l := l.keep written
        ({ l with memory := { l.memory with commits := (s.use l.path).commits } }, s)
  else
    let s := l.storeDirectly s db (l.walOn s)
    (l.refresh s, s)

/-! ## Write-ahead logging -/

/-- The link works with a log, or will from the next statement on. -/
def logs (l : FileLink) (s : Files) : Bool :=
  l.attached || (l.sharing.allowsLog && !l.immutable && l.walOn s)

/-- Switches write-ahead logging on for the file, if the link can have that. -/
def switchWalOn (l : FileLink) (s : Files) : Except Fault Files := do
  if l.attached || l.immutable || !l.sharing.allowsLog then return s
  let db ← l.database s
  match l.access s with
  | .granted => return l.storeDirectly s db.begun true
  | .refused => throw .readOnly
  | .blocked fault => throw fault

end MessageCache.FileLink
