/-
# Places — the databases that views lead to

A view leads to a database file, or to a database in memory or in a temporary
file that nothing else can see, or to one in memory that has a name by which
others can find it.
-/
import MessageCache.Storage.FileLink.Change

namespace MessageCache

/-- The database that a view leads to. -/
inductive Place where
  /-- A file, whose content everyone who leads to it shares. -/
  | file (link : FileLink)
  /-- A database in memory. -/
  | memory (db : Database) (readOnly : Bool)
  /-- A database in memory that others can lead to. -/
  | named (name : Bytes) (readOnly : Bool)
  /-- A database in a temporary file without a name. -/
  | temporary (db : Database) (readOnly : Bool)

namespace Place

/-! ## Finding -/

/-- The name of a database in memory. -/
def memoryName : String := ":memory:"

/-- The most bytes in the path of a database file, the ending of its journal
with it. -/
def longestPath : Nat := 512

/-- The path with one more name, unless that is too long or not to be found
because of a file in the way. -/
def extend (disk : Disk) (p : Path) (n : FileName) : Option Path :=
  if n.stays then some p
  else if n = FileName.dots then some p.dropLast
  else if longestPath < p.size + n.length + 2 then none
  else
    match disk.walk [] (p ++ [n]) with
    | .ok _ | .error .notFound => some (p ++ [n])
    | .error _ => none

/-- The path that a written path means to a database: double dots are taken
together with the name before them, whatever that is. -/
def pathOf? (disk : Disk) (path : Bytes) : Option Path := do
  let r := Route.ofBytes path
  let p ← r.names.foldlM (extend disk) (Disk.origin r)
  if p = [] ∨ longestPath < p.size + (Utf8.bytes "-journal").length then none else some p

/-- The file that a location takes permissions from is there, if it names one. -/
def hasModel (disk : Disk) (l : Location) : Bool := l.model.all disk.exists?

/-- The use of a file after a link to it was made. -/
def useBy (link : FileLink) (u : FileUse) : FileUse :=
  let u := u.reused link.readOnly
  if link.isCounted then u.opened else u

/-- A link to the file at a path, which is made if it is missing and may be
made; the fault is about `name`.  The permissions of the file do not matter if it
need not be opened again. -/
def openFile (s : Files) (l : Location) (name : String) (p : Path) :
    Except Fault (Place × Files) :=
  let link := FileLink.ofLocation l p
  let linked (s : Files) : Place × Files := (.file link, s.setUse p (useBy link (s.use p)))
  if !(s.use p).spare.contains link.readOnly && !hasModel s.disk l then .error .deviceError
  else
    match s.disk.node p with
    | some .directory =>
      .error (if l.access = .read then .deviceError else .cannotOpen (some name))
    | some (.file _) => .ok (linked s)
    | none =>
      if l.access = .create ∧ s.disk.isDirectory p.dropLast then
        .ok (linked (s.setFile p (.text [])))
      else .error (.cannotOpen (some name))

/-- A file in memory has a name that others can find if its path starts at the
top. -/
def isNamed (path : Bytes) : Bool :=
  1 < path.length && (path.head? = some Route.slash || path.head? = some 0x5C)

/-- A file in memory, which is made if it is missing. -/
def openMemoryFile (s : Files) (l : Location) : Place × Files :=
  let readOnly := l.access = .read || l.immutable
  if isNamed l.path then
    let d := (s.named l.path).getD { database := .empty, users := 0 }
    (.named l.path readOnly, s.setNamed l.path (some { d with users := d.users + 1 }))
  else (.memory .empty readOnly, s)

/-- The files after nothing leads to a place from there any more. -/
def release (s : Files) : Place → Files
  | .file l => l.release s
  | .named name _ =>
    match s.named name with
    | none => s
    | some d => s.setNamed name (if 1 < d.users then some { d with users := d.users - 1 } else none)
  | .memory _ _ | .temporary _ _ => s

/-! ## Statements -/

/-- Gets ready for a statement: whether that worked, and the place as it is then. -/
def reach (s : Files) : Place → Except Fault Unit × Place × Files
  | .file l =>
    let (ready, l, s) := l.reach s
    (ready, .file l, s)
  | place => (.ok (), place, s)

/-- The database at a place. -/
def database (s : Files) : Place → Except Fault Database
  | .file l => l.database s
  | .memory db _ => .ok db
  | .named name _ => .ok (((s.named name).map (·.database)).getD .empty)
  | .temporary db _ => .ok db

/-- The number of pages at a place. -/
def pages (s : Files) (place : Place) : Nat :=
  match place with
  | .file l =>
    if l.isBlank s then 0
    else
      match s.disk.content? l.path with
      | some (.text b) => (b.length + (FileLink.pageSize - 1)) / FileLink.pageSize
      | some (.database db _) => db.pages
      | _ => 1
  | _ => ((place.database s).toOption.map (·.pages)).getD 0

/-- Nothing can be written to a place from the beginning. -/
def isReadOnly : Place → Bool
  | .file l => l.readOnly || l.immutable
  | .memory _ readOnly | .named _ readOnly | .temporary _ readOnly => readOnly

/-- What can be done to the database at a place. -/
def access (s : Files) : Place → WriteAccess
  | .file l => l.access s
  | place => if place.isReadOnly then .refused else .granted

/-- A place where it matters which pages were read before. -/
def isPaged : Place → Bool
  | .file l => l.indexed
  | _ => false

/-- Reads pages at a place. -/
def fetch (s : Files) (pages : List PageName) : Place → Except Fault Unit × Place
  | .file l =>
    let (answer, l) := l.fetch s pages
    (answer, .file l)
  | place => (.ok (), place)

/-- A changed database put back to its place, by writing some pages. -/
def store (s : Files) (db : Database) (pages : List PageName) : Place → Place × Files
  | .file l =>
    let (l, s) := l.store s db pages
    (.file l, s)
  | .memory _ readOnly => (.memory db readOnly, s)
  | .temporary _ readOnly => (.temporary db readOnly, s)
  | .named name readOnly =>
    (.named name readOnly,
      s.setNamed name ((s.named name).map fun d => { d with database := db }))

/-! ## What shows of a place -/

/-- How changes at a place are journalled. -/
def journalMode (s : Files) : Place → String
  | .file l => if l.logs s then "wal" else "delete"
  | .memory _ _ | .named _ _ => "memory"
  | .temporary _ _ => "delete"

/-- The name of the file at a place. -/
def fileName? : Place → Option String
  | .file l => l.path.getLast?.bind fun n => (Utf8.read n).toOption
  | _ => none

/-- Asks for write-ahead logging, which only a file can have. -/
def requestWal (s : Files) (place : Place) : Except Fault Files :=
  match place with
  | .file l => l.switchWalOn s
  | _ => .ok s

end Place

end MessageCache
