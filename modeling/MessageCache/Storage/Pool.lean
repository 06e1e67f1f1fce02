/-
# The pool — views that connections share

A connection has a view of its own, or one from the pool, which is there as long
as one of those who share it.  The first of them decides how the database is
opened, and what one of them learns of the database all of them know.
-/
import MessageCache.Storage.View

namespace MessageCache

/-- The name of a view in the pool: that of the database, and the way of working
with files that it is reached by. -/
structure PoolName where
  fileSystem : FileSystem
  name : Bytes
deriving DecidableEq

/-- A view in the pool. -/
structure Pooled where
  view : View
  /-- The number of connections that share it. -/
  users : Nat

structure Storage where
  files : Files
  pool : PoolName → Option Pooled

namespace Storage

/-- No files, and no views. -/
def empty : Storage := { files := .empty, pool := fun _ => none }

def setPooled (s : Storage) (name : PoolName) (p : Option Pooled) : Storage :=
  { s with pool := fun n => if n = name then p else s.pool n }

end Storage

/-- The view that a connection has. -/
inductive Channel where
  | own (view : View)
  | pooled (name : PoolName)

namespace Channel

/-! ## Using a view -/

/-- The view at the end of a channel. -/
def view (s : Storage) : Channel → View
  | .own v => v
  | .pooled name => ((s.pool name).map (·.view)).getD (.ofMemory false)

/-- Does something with the view at the end of a channel. -/
def run (s : Storage) (c : Channel) (f : View → Files → α × View × Files) :
    α × Channel × Storage :=
  let (a, v, files) := f (c.view s) s.files
  let s := { s with files }
  match c with
  | .own _ => (a, .own v, s)
  | .pooled name =>
    (a, c, s.setPooled name ((s.pool name).map fun p => { p with view := v }))

/-- How changes at the end of a channel are journalled. -/
def journalMode (s : Storage) (c : Channel) : String := (c.view s).place.journalMode s.files

/-- The name of the file at the end of a channel. -/
def fileName? (s : Storage) (c : Channel) : Option String := (c.view s).place.fileName?

/-! ## Connecting -/

/-- A view of a new database in memory. -/
def newMemory : Channel := .own (.ofMemory false)

/-- Shares the view of that name, which `make` makes if there is none. -/
def share (s : Storage) (name : PoolName) (make : Files → Except Fault (View × Files)) :
    Except Fault (Channel × Storage) :=
  match s.pool name with
  | some p => .ok (.pooled name, s.setPooled name (some { p with users := p.users + 1 }))
  | none =>
    (make s.files).map fun (view, files) =>
      (.pooled name, { s with files }.setPooled name (some { view, users := 1 }))

/-- A view that is shared if the location asks for that. -/
def enter (s : Storage) (l : Location) (name : Bytes)
    (make : Files → Except Fault (View × Files)) : Except Fault (Channel × Storage) :=
  if l.shared then share s { fileSystem := l.fileSystem, name } make
  else (make s.files).map fun (view, files) => (.own view, { s with files })

/-- The view of a place that a location describes. -/
def viewOf (l : Location) (place : Place) (s : Files) : View :=
  if l.immutable then .ofImmutable s place else .ofPlace place

/-- Connects to a location; a fault is about `name`. -/
def connectTo (s : Storage) (l : Location) (name : String) : Except Fault (Channel × Storage) :=
  let readOnly := l.access = .read
  if l.access = .memory ∨ l.path = Utf8.bytes Place.memoryName then
    if l.path = [] then .ok (.own (.ofMemory readOnly), s)
    else enter s l l.path fun files => .ok (.ofMemory readOnly, files)
  else if l.path = [] then .ok (.own (.ofPlace (.temporary .empty readOnly)), s)
  else if l.fileSystem = .memory then
    enter s l l.path fun files =>
      let (place, opened) := Place.openMemoryFile files l
      .ok (viewOf l place files, opened)
  else
    match Place.pathOf? s.files.disk l.path with
    | none => .error (.cannotOpen (some name))
    | some p =>
      enter s l p.written fun files =>
        (Place.openFile files l name p).map fun (place, files) => (viewOf l place files, files)

/-- Connects to what a name means. -/
def connect (s : Storage) (name : String) : Except Fault (Channel × Storage) := do
  let b := Utf8.bytes name
  match b.findIdx? (· = 0) with
  | some position => throw (.nulByte position)
  | none => connectTo s (← Location.parse b) name

/-- The storage after a connection has ended. -/
def release (s : Storage) : Channel → Storage
  | .own v => { s with files := v.place.release s.files }
  | .pooled name =>
    match s.pool name with
    | none => s
    | some p =>
      if 1 < p.users then s.setPooled name (some { p with users := p.users - 1 })
      else { s with files := p.view.place.release s.files }.setPooled name none

end Channel

end MessageCache
