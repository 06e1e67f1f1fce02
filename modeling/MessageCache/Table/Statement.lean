/-
# Statements — how a database is changed

Each statement is a function of the database: it either fails, which leaves the
database as it was, or gives the changed database and, where there is one, its
answer.  A statement that names several unknown columns reports the first, in
the order in which it names them.
-/
import MessageCache.Table.Condition
import MessageCache.Table.Own

namespace MessageCache

namespace Database

/-- All of `names` mean something in the rows of the table. -/
def known (t : Table) (names : List String) : Except Fault Unit :=
  match t.missing? names with
  | some name => .error (.noSuchColumn name)
  | none => .ok ()

/-- The fault of a statement that writes a name down which holds the character
that ends it: what is read of the name by then. -/
def nameFault? (name : String) : Option Fault :=
  if '\x00' ∈ name.toList then
    let start := String.ofList (name.toList.takeWhile (· ≠ '\x00'))
    some (.unfinishedName (String.ofList ((quotedName start).toList.dropLast)))
  else none

/-- All of `names` can be written down. -/
def writable (names : List String) : Except Fault Unit :=
  match names.findSome? nameFault? with
  | some fault => .error fault
  | none => .ok ()

/-! ## Tables and indexes -/

/-- The most columns that a table can have. -/
def mostColumns : Nat := 2000

/-- The name is one that only the database itself gives. -/
def isReserved (name : String) : Bool := "sqlite_".toList.isPrefixOf (nameKey name).toList

/-- What is wrong with the name of a new table, whatever tables there are. -/
def tableNameFault? (name : String) : Option Fault :=
  match nameFault? name with
  | some fault => some fault
  | none => if isReserved name then some (.reservedName name) else none

/-- The first thing wrong with the columns of a new table, each looked at after
those with the keys `earlier`. -/
def columnFault? (table : String) : List String → List Column → Option Fault
  | _, [] => none
  | earlier, c :: rest =>
    match nameFault? c.name with
    | some fault => some fault
    | none =>
      if mostColumns ≤ earlier.length then some (.tooManyColumns table)
      else if c.key ∈ earlier then some (.duplicateColumn c.name)
      else columnFault? table (c.key :: earlier) rest

/-- Creates a table without rows. -/
def createTable (db : Database) (name : String) (columns : List Column) :
    Except Fault Database :=
  match tableNameFault? name with
  | some fault => .error fault
  | none =>
    if (db.table? name).isSome then .error (.tableExists name)
    else if db.hasIndex name then .error (.namedLikeIndex name)
    else if columns.isEmpty then .error .noColumns
    else
      match columnFault? name [] columns with
      | some fault => .error fault
      | none =>
        let t : Table := { name, columns, rows := [] }
        .ok ((db.setTable name t).taking (db.parts t).length).altered

/-- Creates an index on a column of a table. -/
def createIndex (db : Database) (name table column : String) : Except Fault Database :=
  match db.table? table with
  | none => .error (.noSuchTable s!"main.{table}")
  | some t =>
    if (db.table? name).isSome then .error (.namedLikeTable name)
    else if db.hasIndex name then .error (.indexExists name)
    else
      match t.column? column with
      | none => .error (.noSuchColumn column)
      | some c =>
        let index : Index := { key := nameKey name, table := nameKey table, column := c.key }
        .ok (({ db with indexes := db.indexes ++ [index] }).taking 1).altered

/-- The pages of a table that is dropped: what was on them is left there, but for
the last, which is the one to list free pages on if there was none before. -/
def left (db : Database) (t : Table) : List (Option Page) :=
  let pages := (db.parts t).map fun part =>
    some { name := .part (nameKey t.name) part, rows := t.rows : Page }
  if db.free.isEmpty then pages.dropLast ++ [none] else pages

/-- Removes a table and its indexes. -/
def dropTable (db : Database) (name : String) : Except Fault Database := do
  writable [name]
  match db.table? name with
  | none => throw ((OwnTable.ofName? name).elim (.noSuchTable name) OwnTable.dropFault)
  | some t =>
    return { db with
      table := fun k => if k = nameKey name then none else db.table k
      indexes := db.indexes.filter fun i => i.table ≠ nameKey name
      free := db.left t ++ db.free }.altered

/-- Adds a column at the end of a table, with its initial cell in every row.  A
table that has too many columns for that is named as the new form of itself. -/
def addColumn (db : Database) (table : String) (c : Column) : Except Fault Database := do
  let t ← db.find table
  if mostColumns ≤ t.columns.length then
    throw (.tooManyColumns s!"sqlite_altertab_{t.name}")
  match t.column? c.name with
  | some _ => throw (.duplicateColumn c.name)
  | none =>
    return (db.setTable table
      { t with
        columns := t.columns ++ [c]
        rows := t.rows.map fun row => row.set c.key c.initial }).altered

/-! ## Rows -/

/-- What an insertion does about a row that has the same key. -/
inductive OnConflict where
  /-- Fail. -/
  | refuse
  /-- Take the other row out. -/
  | replace
  /-- Leave the other row where it is, with `column` as in the new row.  The rows
  must be told apart by `key`. -/
  | assign (key column : String)

/-- The row that an insertion of values makes; other columns begin with what is
initial for them. -/
def newRow (t : Table) (id : Int) (values : List (String × Cell)) : Row :=
  let values := values.map fun v => (nameKey v.1, v.2)
  { id
    cells := t.columns.map fun c =>
      let key := c.key
      (key,
        match values.find? fun v => v.1 = key with
        | none => c.initial
        | some v => c.affinity.apply v.2) }

/-- A cell as the id of a row. -/
def idOfCell (c : Cell) : Except Fault Int :=
  match Affinity.integer.apply c with
  | .integer n => .ok n.toInt
  | _ => .error .idMismatch

/-- The id that an insertion gives its row; null leaves the choice to the table.
Of several values for the id the last counts. -/
def givenId? (t : Table) (values : List (String × Cell)) : Except Fault (Option Int) :=
  match (values.filter fun v => t.namesId v.1).getLast? with
  | none => .ok none
  | some (_, .null) => .ok none
  | some (_, c) => (idOfCell c).map some

/-- The fault of a row id that another row has already. -/
def idTaken (t : Table) : Fault := .notUnique t.name "rowid"

/-- The first column that refuses the row's null. -/
def nullColumn? (t : Table) (row : Row) : Option Column :=
  t.columns.find? fun c => c.notNull && row.cell c.key = .null

/-- What is wrong with what an insertion does about a row with the same key. -/
def conflictFault? (t : Table) : OnConflict → Option Fault
  | .assign key _ =>
    if t.keyColumn?.any fun c => c.key = nameKey key then none else some .noConflictTarget
  | _ => none

/-- Two rows have the same key. -/
def sameKey (key : String) (a b : Row) : Bool := Comparison.eq.holds (a.cell key) (b.cell key)

/-- Puts a row into a table. -/
def insertRow (db : Database) (table : String) (t : Table) (row : Row)
    (onConflict : OnConflict) : Except Fault Database :=
  let added (rows : List Row) : Database := db.setTable table { t with rows := Table.place row rows }
  match t.keyColumn? with
  | none => .ok (added t.rows)
  | some c =>
    if t.rows.any (sameKey c.key row) then
      match onConflict with
      | .refuse => .error (.notUnique t.name c.name)
      | .replace => .ok (added (t.rows.filter fun r => !sameKey c.key row r))
      | .assign _ column =>
        let k := nameKey column
        .ok (db.setTable table { t with
          rows := t.rows.map fun r =>
            if sameKey c.key row r then r.set k (row.cell k) else r })
    else .ok (added t.rows)

/-- Puts a row with some values into a table. -/
def insert (db : Database) (table : String) (values : List (String × Cell))
    (onConflict : OnConflict) : Except Fault Database := do
  if values.isEmpty then throw .noColumns
  writable (values.map (·.1))
  let t ← db.find table
  match t.missing? (values.map (·.1)) with
  | some name => throw (.unknownColumn table name)
  | none =>
    match conflictFault? t onConflict with
    | some fault => throw fault
    | none =>
      let given ← givenId? t values
      let row := newRow t (given.getD (Table.nextId (t.rows.map (·.id)))) values
      match nullColumn? t row with
      | some c => throw (.notNull t.name c.name)
      | none =>
        if given.any fun id => t.rows.any fun r => r.id = id then throw (idTaken t)
        else db.insertRow table t row onConflict

/-- Puts a row into a table that has a value for each column, in their order,
and takes out the row with the same key. -/
def insertWhole (db : Database) (table : String) (values : List Cell) :
    Except Fault Database := do
  let t ← db.find table
  if values.length ≠ t.columns.length then
    throw (.wrongNumberOfValues table t.columns.length values.length)
  db.insert table ((t.columns.map (·.name)).zip values) .replace

/-- Gives another id to the rows that `cond` means, of which there can be only
one, and says how many there are. -/
def renumber (db : Database) (table : String) (t : Table) (value : Cell) (cond : Condition) :
    Except Fault (Nat × Database) := do
  let chosen (r : Row) : Bool := cond.holds t r
  match t.rows.filter chosen with
  | [] => return (0, db)
  | row :: others =>
    let id ← idOfCell value
    if !others.isEmpty ∨ t.rows.any (fun r => !chosen r && r.id = id) then throw (idTaken t)
    let rows := t.rows.filter fun r => !chosen r
    return (1, db.setTable table { t with rows := Table.place { row with id } rows })

/-- Puts `value` into one column of the rows that `cond` means, and says how
many there are. -/
def update (db : Database) (table column : String) (value : Cell) (cond : Condition) :
    Except Fault (Nat × Database) := do
  writable [column]
  let t ← db.find table
  known t (column :: cond.columns)
  match t.column? column with
  | none => db.renumber table t value cond
  | some c =>
    let cell := c.affinity.apply value
    let chosen (r : Row) : Bool := cond.holds t r
    let count := t.rows.countP chosen
    if count ≠ 0 ∧ c.notNull ∧ cell = .null then throw (.notNull t.name c.name)
    else if count ≠ 0 ∧ c.isKey ∧ cell ≠ .null ∧
        (1 < count ∨ t.rows.any fun r => !chosen r && (r.cell c.key).same cell) then
      throw (.notUnique t.name c.name)
    else
      return (count, db.setTable table { t with
        rows := t.rows.map fun r => if chosen r then r.set c.key cell else r })

/-- Takes out the rows that `cond` means, and says how many there were. -/
def delete (db : Database) (table : String) (cond : Condition) :
    Except Fault (Nat × Database) := do
  let t ← db.find table
  known t cond.columns
  let chosen (r : Row) : Bool := cond.holds t r
  return (t.rows.countP chosen,
    db.setTable table { t with rows := t.rows.filter fun r => !chosen r })

end Database

end MessageCache
