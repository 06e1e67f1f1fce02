/-
# Logs — how links come to a write-ahead log

A link looks at the files beside its own before each statement.  It cleans them
up, as remains of something that did not come to its end, or goes over to the
log.  It opens the log first and then the index, for which there may be no place;
it tries again before the next statement.

A link that takes the file for immutable looks at nothing but the file.
-/
import MessageCache.Storage.FileLink.Memory

namespace MessageCache.FileLink

/-! ## The journal -/

/-- The journal tells of a change that did not come to its end. -/
def isHot (b : Bytes) : Bool :=
  match b with
  | [] => false
  | x :: _ => x ≠ 0

/-- The journal may still be being written for all that the link can tell: one that
takes turns through files takes its own file for that of another. -/
def mayBeWritten (l : FileLink) (s : Files) : Bool :=
  l.sharing = .files || l.fileSystem = .lockFiles && (s.disk.node l.lockFile).isSome

/-- Cleans up a journal, or says why that cannot be done. -/
def settle (l : FileLink) (s : Files) : Except Fault Files :=
  if l.mayBeWritten s then .ok s
  else
  match s.disk.node l.journal with
  | some .directory => if l.isBlank s then .ok s else .error .deviceError
  | some (.file (.text b)) =>
    if b.isEmpty then .ok s
    else if l.isBlank s then .ok (if l.readOnly then s else s.removeFile l.journal)
    else if !isHot b then .ok s
    else if l.readOnly then .error .readOnly
    else if l.sharing ≠ .none ∧ (s.use l.path).users ≠ 0 then .error .locked
    else .ok (s.removeFile l.journal)
  | _ => .ok s

/-! ## Joining -/

/-- Where the first link to a log keeps the index, if there is a place for it. -/
def newIndex? (l : FileLink) (s : Files) : Option LogIndex :=
  if (s.use l.path).exclusive then some .inMemory
  else
    match s.disk.node l.index with
    | some .directory => some .readOnly
    | some (.file _) => some (if l.indexReadOnly then .readOnly else .inFile)
    | none => if l.indexReadOnly then none else some .inFile

/-- There is something in place of the log that a link which only reads the index
takes for a log that is always just being written: one with a mark. -/
def isPuzzling (l : FileLink) (s : Files) : Bool :=
  match s.disk.content? l.log with
  | some (.text b) => logStart ≤ b.length && ((b.drop 16).take 8).any (· ≠ 0)
  | _ => false

/-- Gets the index of the log that the link has open. -/
def getIndex (l : FileLink) (s : Files) : Except Fault Unit × FileLink × Files :=
  let use := s.use l.path
  let ready : FileLink := { l with indexed := true }
  if use.readers ≠ 0 then (.ok (), ready, s.setUse l.path { use with readers := use.readers + 1 })
  else
    match l.newIndex? s with
    | none => (.error (.cannotOpen none), l, s)
    | some index =>
      if index = .readOnly && l.isPuzzling s then (.error .busyForever, l, s)
      else
        let changed := l.logged? s
        let s := if index = .inFile then s.touch l.index else s
        (.ok (), ready, s.setUse l.path { use with readers := 1, index, changed })

/-- Nothing can be added to the log, because its index is only read. -/
def isUnindexed (l : FileLink) (s : Files) : Bool := (s.use l.path).index = .readOnly

/-- Goes over to the log. -/
def attach (l : FileLink) (s : Files) : Except Fault Unit × FileLink × Files :=
  if !l.sharing.allowsLog || s.disk.isDirectory l.log then (.error (.cannotOpen none), l, s)
  else
    match l.lostFirst? s with
    | some fault => (.error fault, l, s)
    | none =>
      let use := s.use l.path
      getIndex { l with attached := true, read := none, memory := .none }
        ((s.touch l.log).setUse l.path { use with users := use.users + 1 })

/-- There is something in the place of the log. -/
def hasLog (l : FileLink) (s : Files) : Bool :=
  match s.disk.node l.log with
  | none => false
  | some .directory => true
  | some (.file content) => !content.isEmpty

/-- Goes over to the log if there is one, or has to be one. -/
def join (l : FileLink) (s : Files) : Except Fault Unit × FileLink × Files :=
  if l.hasLog s then
    if l.isBlank s then
      if s.disk.isDirectory l.log then (.error .deviceError, l, s)
      else (.ok (), l, s.removeFile l.log)
    else l.attach s
  else if l.walOn s then l.attach s
  else (.ok (), l, s)

/-- The files after the link has shut other processes out, if it does that. -/
def shutOut (l : FileLink) (s : Files) : Files :=
  if l.sharing = .exclusive then s.setUse l.path { s.use l.path with exclusive := true } else s

/-- Locks the file.  There is nothing to be done for that while there are locks on
it. -/
def lock (l : FileLink) (s : Files) : Except Fault Files :=
  if l.sharing = .files && !l.lockFile.isNameable then .error .deviceError
  else if l.sharing = .files && (s.disk.node l.lockFile).isSome then .error .locked
  else .ok (if (s.use l.path).isLocked then s else l.shutOut s)

/-- Gets to the file, or to the log. -/
def approach (l : FileLink) (s : Files) : Except Fault Unit × FileLink × Files :=
  if l.immutable || l.indexed then (.ok (), l, s)
  else if l.attached then l.getIndex s
  else
    match l.lock s with
    | .error fault => (.error fault, l, s)
    | .ok s =>
      match l.settle s with
      | .error fault => (.error fault, l, s)
      | .ok s => (l.refresh s).join s

/-- Gets ready for a statement, which is to have read the first page: whether that
worked, and the link as it is then. -/
def reach (l : FileLink) (s : Files) : Except Fault Unit × FileLink × Files :=
  match l.approach s with
  | (.error fault, l, s) => (.error fault, l, s)
  | (.ok (), l, s) =>
    if l.indexed then
      let (answer, l) := (l.renew s).fetch s [.first]
      (answer, l, s)
    else (.ok (), l, s)

end MessageCache.FileLink
