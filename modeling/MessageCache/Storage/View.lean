/-
# Views — what is known of a database

A view leads to a place and remembers the tables and indexes that it has seen
there, and by these it prepares statements.  What it remembers may be out of date.
It is looked up again when a prepared statement is carried out, and before some
mistakes are reported, which it may be to blame for.

A view that takes its database for immutable never looks twice at the same thing.
-/
import MessageCache.Storage.Place
import MessageCache.Table.Transaction

namespace MessageCache

/-- What a view that takes its database for immutable has seen of it, apart from
tables and indexes. -/
structure Seen where
  /-- The number of pages that there were when the view began, and for the view
  there are never more. -/
  pages : Nat
  /-- The database cannot be read. -/
  broken : Option Fault
  /-- The pages that were read. -/
  known : List Page

namespace Seen

/-- A database when one first looks at it: there has to be something, and not
more than there was when the view began. -/
def first (seen : Seen) (now : Except Fault Database) : Except Fault Database :=
  match now with
  | .error fault => .error fault
  | .ok db =>
    if db.pages = 0 then .error .notADatabase
    else if seen.pages < db.pages then .error .malformed
    else .ok db

/-- The tables and indexes as they are seen, which does not change once they are
known. -/
def database (seen : Seen) (known : Option Database) (now : Except Fault Database) :
    Except Fault Database :=
  if seen.pages = 0 then .ok .empty
  else
    match seen.broken, known with
    | some fault, _ => .error fault
    | none, none => (seen.first now).map Database.outline
    | none, some known => .ok known

/-- The rows on a page: as they were seen, or as they are now if it is still
there. -/
def page? (seen : Seen) (name : PageName) (now : Except Fault Database) : Option (List Row) :=
  match seen.known.find? (·.name = name) with
  | some page => some page.rows
  | none => now.toOption.bind (·.page? name)

/-- Reads a page. -/
def read (seen : Seen) (name : PageName) (now : Except Fault Database) :
    Except Fault (List Row) × Seen :=
  match seen.page? name now with
  | none => (.error .malformed, seen)
  | some rows => (.ok rows, { seen with known := seen.known ++ [{ name, rows }] })

/-- Searches a table, the rows found so far being `first`. -/
def lookUp (seen : Seen) (db : Database) (t : Table) (search : Search) (first : List Row)
    (now : Except Fault Database) : Except Fault (List Row) × Seen :=
  match search.hits? db t first with
  | none => (.ok first, seen)
  | some [] => (.ok [], seen)
  | some hits =>
    match seen.read (.part (nameKey search.table) .rows) now with
    | (.error fault, seen) => (.error fault, seen)
    | (.ok rows, seen) => (hits.mapM (search.join rows), seen)

/-- Searches a table. -/
def search (seen : Seen) (db : Database) (t : Table) (search : Search)
    (now : Except Fault Database) : Except Fault (List Row) × Seen :=
  match seen.read (.part (nameKey search.table) (search.part db t)) now with
  | (.error fault, seen) => (.error fault, seen)
  | (.ok first, seen) => seen.lookUp db t search first now

/-- After reading the database failed. -/
def failing (seen : Seen) (fault : Fault) : Seen := { seen with broken := some fault }

end Seen

structure View where
  place : Place
  /-- The tables and indexes that are known. -/
  outline : Option Database
  /-- What has been seen, if the database is taken for immutable. -/
  seen : Option Seen

namespace View

/-- A view of a place of which nothing is known. -/
def ofPlace (place : Place) : View := { place, outline := none, seen := none }

/-- A view of a place that is taken for immutable. -/
def ofImmutable (s : Files) (place : Place) : View :=
  { place, outline := none
    seen := some { pages := place.pages s, broken := none, known := [] } }

/-- A view of a new database in memory. -/
def ofMemory (readOnly : Bool) : View := ofPlace (.memory .empty readOnly)

/-! ## Preparing -/

/-- The database as the view sees it. -/
def database (v : View) (s : Files) : Except Fault Database :=
  match v.seen with
  | none => v.place.database s
  | some seen => seen.database v.outline (v.place.database s)

/-- What is known of a database once one has looked at it: as before, unless it
is of another edition. -/
def outlineOf (v : View) (db : Database) : Database :=
  (v.outline.filter (·.edition = db.edition)).getD db.outline

/-- Looks at the database. -/
def look (v : View) (s : Files) : Except Fault (WriteAccess × Database) × View × Files :=
  match v.place.reach s with
  | (.error fault, place, s) => (.error fault, { v with place }, s)
  | (.ok (), place, s) =>
    let v : View := { v with place }
    match v.database s with
    | .error fault => (.error fault, { v with seen := v.seen.map (·.failing fault) }, s)
    | .ok db => (.ok (place.access s, db), { v with outline := some (v.outlineOf db) }, s)

/-- Prepares a statement with the tables and indexes that are known: a fault, or
the database and what can be done to it. -/
def prepareBy (v : View) (s : Files) (plan : Plan) (known : Database) :
    Except Fault (WriteAccess × Database) × View × Files :=
  match plan.check known with
  | .error fault =>
    if !fault.isRechecked then (.error fault, v, s)
    else
      match v.look s with
      | (.error _, v, s) => (.error fault, v, s)
      | (.ok (access, db), v, s) =>
        (if db.edition = known.edition then .error fault else .ok (access, db), v, s)
  | .ok writes =>
    if writes && v.place.isReadOnly then (.error .readOnly, v, s)
    else
      match v.look s with
      | (.ok (.refused, db), v, s) =>
        (if writes then .error .readOnly else .ok (.refused, db), v, s)
      | r => r

/-- The view with something else known. -/
def knowing (v : View) (outline : Option Database) : View := { v with outline }

/-- Prepares a statement.  One that has something wrong with it does not make tables
and indexes known, except to a view that does not look at them again. -/
def prepare (v : View) (s : Files) (plan : Plan) :
    Except Fault (WriteAccess × Database) × View × Files :=
  match plan.flaw, v.outline with
  | some fault, known =>
    if !fault.isRechecked then (.error fault, v, s)
    else
      match v.look s with
      | (.error _, v, s) => (.error fault, v, s)
      | (.ok (_, db), v, s) =>
        let v := if v.seen.isSome then v else v.knowing (known.filter (·.edition = db.edition))
        (.error fault, v, s)
  | none, none => v.look s
  | none, some known => v.prepareBy s plan known

/-! ## Carrying out -/

/-- The view and the files after the database was changed by writing some pages. -/
def store (v : View) (s : Files) (db : Database) (pages : List PageName) : View × Files :=
  let (place, s) := v.place.store s db pages
  ({ v with place, outline := some db.outline }, s)

/-- The database with the rows that a search finds, for a view that takes it for
immutable. -/
def find (v : View) (s : Files) (db : Database) (search : Option Search) :
    Except Fault Database × View :=
  match v.seen, search.bind fun x => (db.table? x.table).map (x, ·) with
  | some seen, some (search, t) =>
    let (rows, seen) := seen.search db t search (v.place.database s)
    (rows.map fun rows => db.setTable search.table { t with rows }, { v with seen := some seen })
  | _, _ => (.ok db, v)

/-- The pages that a statement needs, if it is not found to be wrong before that and
it matters. -/
def pagesFor (v : View) (db : Database) (plan : Plan) : List PageName :=
  if !v.place.isPaged then []
  else
    match plan.check db with
    | .error _ => []
    | .ok _ => plan.pages db

/-- Reads what a statement needs. -/
def read (v : View) (s : Files) (db : Database) (plan : Plan) (pages : List PageName) :
    Except Fault Database × View :=
  match v.place.fetch s (pages.filter db.hasPage) with
  | (.error fault, place) => (.error fault, { v with place })
  | (.ok (), place) => { v with place }.find s db (plan.search db)

/-- Carries out a statement. -/
def perform (v : View) (s : Files) (plan : Plan) (f : WriteAccess → Database → Effect α) :
    Except Fault α × View × Files :=
  match v.prepare s plan with
  | (.error fault, v, s) => (.error fault, v, s)
  | (.ok (access, db), v, s) =>
    let pages := v.pagesFor db plan
    match v.read s db plan pages with
    | (.error fault, v) => (.error fault, v, s)
    | (.ok db, v) =>
      let e := f access db
      let (v, s) :=
        match e.changed with
        | none => (v, s)
        | some db => v.store s db pages
      (.ok e.answer, if e.undone then { v with outline := none } else v, s)

/-- Asks for write-ahead logging. -/
def requestWal (v : View) (s : Files) : Except Fault Unit × View × Files :=
  let (known, v, s) :=
    if v.outline.isSome then (.ok (), v, s)
    else
      let (r, v, s) := v.look s
      (r.map fun _ => (), v, s)
  match known with
  | .error fault => (.error fault, v, s)
  | .ok () =>
    match v.place.reach s with
    | (.error fault, place, s) => (.error fault, { v with place }, s)
    | (.ok (), place, s) =>
      match place.requestWal s with
      | .error fault => (.error fault, { v with place }, s)
      | .ok s => (.ok (), { v with place }, s)

end View

end MessageCache
