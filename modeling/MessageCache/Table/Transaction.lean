/-
# Transactions — statements that are carried out together or not at all

A connection may write to its database, only read it, or be kept from writing.
Whoever may only read is told of mistakes in a statement first, and then that
nothing can be written: a row that its rules would break does not come to that,
since it would be found out too late.  A statement that finds nothing to be done
is not refused.

Before a statement is carried out it is prepared with what is known of the tables
and indexes.  A `Plan` is what preparing a statement comes down to.

`WriteAccess.granted` changes nothing: `pass_granted`.
-/
import MessageCache.Table.Pages

namespace MessageCache

/-- What a connection can do to its database. -/
inductive WriteAccess where
  | granted
  /-- It can only read. -/
  | refused
  /-- It can write, but something is in the way of putting a change down. -/
  | blocked (fault : Fault)
deriving DecidableEq

namespace WriteAccess

/-- What becomes of the result of a change.  `late` errors are found out only
when the change has begun, and `changed` says that the result is a change. -/
def pass (access : WriteAccess) (late : ε → Bool) (ofFault : Fault → ε) (changed : α → Bool)
    (result : Except ε α) : Except ε α :=
  match access, result with
  | .granted, result => result
  | .refused, .error e => .error (if late e then ofFault .readOnly else e)
  | .refused, .ok _ => .error (ofFault .readOnly)
  | .blocked _, .error e => .error e
  | .blocked fault, .ok a => if changed a then .error (ofFault fault) else .ok a

@[simp] theorem pass_granted (late : ε → Bool) (ofFault : Fault → ε) (changed : α → Bool)
    (result : Except ε α) : granted.pass late ofFault changed result = result := rfl

end WriteAccess

/-! ## Plans -/

/-- What can be told of a statement before it is carried out. -/
structure Plan where
  /-- What is wrong with its text, for which nothing has to be looked up. -/
  flaw : Option Fault
  /-- With the tables and indexes that are known: what else is wrong with it, or
  whether it is going to write. -/
  check : Database → Except Fault Bool
  /-- How it searches a table if it does not write, with those that are known. -/
  search : Database → Option Search
  /-- The pages that it needs. -/
  pages : Database → List PageName

namespace Plan

/-- A statement that has nothing wrong with it and may search a table. -/
def reading (search : Database → Option Search) : Plan :=
  { flaw := none, check := fun _ => .ok false, search
    pages := fun db => ((search db).map db.searchPages).getD [] }

/-- What is found out of a statement before it begins. -/
def ofResult (writes : α → Bool) : Except Fault α → Except Fault Bool
  | .error fault => if fault.isBrokenRule then .ok true else .error fault
  | .ok a => .ok (writes a)

end Plan

/-! ## Effects -/

/-- What a statement does. -/
structure Effect (α : Type) where
  answer : α
  /-- The changed database, if it is changed. -/
  changed : Option Database
  /-- Changes of tables or indexes were taken back. -/
  undone : Bool

namespace Effect

/-- A statement that changes nothing. -/
def none (answer : α) : Effect α := { answer, changed := Option.none, undone := false }

/-- A statement that fails, or answers and perhaps changes the database. -/
def ofResult : Except Fault (α × Option Database) → Effect (Except Fault α)
  | .error fault => none (.error fault)
  | .ok (answer, changed) => { answer := .ok answer, changed, undone := false }

end Effect

/-! ## Statements -/

/-- A statement that changes a database: the changed database, or none if there
was nothing to be done. -/
structure Statement where
  /-- What is wrong with its text. -/
  flaw : Option Fault
  run : Database → Except Fault (Option Database)
  /-- The pages that it needs. -/
  pages : Database → List PageName

namespace Statement

/-- A statement that always has something to do. -/
def always (pages : Database → List PageName) (run : Database → Except Fault Database) :
    Statement :=
  { flaw := none, run := fun db => (run db).map some, pages }

/-- The pages of a new table. -/
def newPages (name : String) (columns : List Column) (db : Database) : List PageName :=
  let t : Table := { name, columns, rows := [] }
  Database.pagesOf t (db.parts t)

/-- Creates a table. -/
def createTable (name : String) (columns : List Column) : Statement :=
  { flaw := Database.tableNameFault? name
    run := fun db => (db.createTable name columns).map some
    pages := newPages name columns }

/-- Creates a table unless there is one of that name. -/
def createTableIfMissing (name : String) (columns : List Column) : Statement :=
  { flaw := Database.tableNameFault? name
    run := fun db =>
      if (db.table? name).isSome then .ok none else (db.createTable name columns).map some
    pages := fun db => if (db.table? name).isSome then [] else newPages name columns db }

/-- Creates an index on a column of a table. -/
def createIndex (name table column : String) : Statement :=
  .always (·.indexPages name table) fun db => db.createIndex name table column

/-- Creates an index on a column of a table unless there is one of that name. -/
def createIndexIfMissing (name table column : String) : Statement :=
  let isThere (db : Database) : Bool :=
    (db.table? table).isSome && (db.table? name).isNone && db.hasIndex name
  { flaw := none
    run := fun db =>
      if isThere db then .ok none else (db.createIndex name table column).map some
    pages := fun db => if isThere db then [] else db.indexPages name table }

/-- Drops a table. -/
def dropTable (name : String) : Statement :=
  { flaw := Database.nameFault? name
    run := fun db => (db.dropTable name).map some
    pages := (·.dropPages name) }

/-- Adds a column to a table, which does not touch its rows. -/
def addColumn (table : String) (c : Column) : Statement :=
  .always (fun _ => []) fun db => db.addColumn table c

/-- Puts a row with some values into a table, and fails if there is one with the
same key. -/
def insert (table : String) (values : List (String × Cell)) : Statement :=
  { flaw :=
      if values.isEmpty then some .noColumns
      else (values.map (·.1)).findSome? Database.nameFault?
    run := fun db => (db.insert table values .refuse).map some
    pages := (·.insertPages table values) }

/-- Puts a row with some values into a table; if there is one with the same key,
only a column of that is assigned. -/
def insertOrAssign (table : String) (values : List (String × Cell)) (key column : String) :
    Statement :=
  .always (·.insertPages table values) fun db => db.insert table values (.assign key column)

/-- Puts a whole row into a table in the place of one with the same key. -/
def insertWhole (table : String) (values : List Cell) : Statement :=
  .always
    (fun db =>
      ((db.table? table).map fun t =>
        db.insertPages table ((t.columns.map (·.name)).zip values)).getD [])
    fun db => db.insertWhole table values

/-- Updates a column of the rows that a condition means. -/
def update (table column : String) (value : Cell) (cond : Condition) : Statement :=
  .always (·.updatePages table column cond) fun db =>
    (db.update table column value cond).map (·.2)

/-- What a statement does with some access. -/
def execute (s : Statement) (access : WriteAccess) (db : Database) :
    Except Fault (Option Database) :=
  match s.run db with
  | .ok none => .ok none
  | result => access.pass Fault.isBrokenRule id (fun _ => true) result

def plan (s : Statement) : Plan :=
  { flaw := s.flaw
    check := fun known => Plan.ofResult Option.isSome (s.run known)
    search := fun _ => none
    pages := s.pages }

end Statement

/-! ## Transactions -/

/-- The database after all of the statements. -/
def transaction (access : WriteAccess) (statements : List Statement) (db : Database) :
    Except Fault Database :=
  statements.foldlM (fun db s => (s.execute access db).map (·.getD db)) db

/-- The edition that a database has before the first of the statements that fails,
or after all of them. -/
def editionReached (access : WriteAccess) : List Statement → Database → Nat
  | [], db => db.edition
  | s :: rest, db =>
    match s.execute access db with
    | .error _ => db.edition
    | .ok after => editionReached access rest (after.getD db)

/-- The pages that the statements need, each once those before it were carried
out. -/
def transactionPages : List Statement → Database → List PageName
  | [], _ => []
  | s :: rest, db =>
    s.pages db ++
      match s.run db with
      | .error _ => []
      | .ok after => transactionPages rest (after.getD db)

/-- Preparing a transaction is preparing its first statement. -/
def Plan.ofTransaction : List Statement → Plan
  | [] => .reading fun _ => none
  | s :: rest => { s.plan with pages := transactionPages (s :: rest) }

end MessageCache
