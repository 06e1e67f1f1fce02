/-
# Queries — what a database is asked for

A query reads the rows of one table that a condition means.  It fails if the
table or a column that it names is not there, and never because of what the
cells hold; sums apart, which can leave the range of integers.
-/
import MessageCache.Table.Statement
import MessageCache.Sorting
import MessageCache.Number.Sum

namespace MessageCache

/-- A row of a result: the cells asked for, each with its column's name. -/
abbrev ResultRow := List (String × Cell)

namespace Database

/-! ## Results -/

/-- The cells of a row in some columns of its table. -/
def project (t : Table) (columns : List String) (row : Row) : ResultRow :=
  columns.map fun name =>
    match t.column? name with
    | some c => (c.name, row.cell c.key)
    | none => (name, t.value row name)

/-- The rows in the order of a name's values, ties in their given order. -/
def ordered (t : Table) (name : String) (rows : List Row) : List Row :=
  sortBy (fun a b => (t.value a name).le (t.value b name)) rows

/-- The rows that `cond` means, ascending by `orderBy` if that is given, and
otherwise in the order of their ids. -/
def chosenRows (t : Table) (cond : Condition) (orderBy : Option String) : List Row :=
  let rows := t.rows.filter fun r => cond.holds t r
  match orderBy with
  | none => rows
  | some name => ordered t name rows

/-- Some columns of the rows that `cond` means. -/
def select (db : Database) (table : String) (columns : List String) (cond : Condition)
    (orderBy : Option String) : Except Fault (List ResultRow) := do
  let t ← db.find table
  known t (columns ++ cond.columns ++ orderBy.toList)
  .ok ((chosenRows t cond orderBy).map (project t columns))

/-- The number of rows that `cond` means. -/
def count (db : Database) (table : String) (cond : Condition) : Except Fault Nat := do
  let t ← db.find table
  known t cond.columns
  .ok (t.rows.countP fun r => cond.holds t r)

/-- Cells without those that equal the one before them. -/
def dedup : List (String × Cell) → List (String × Cell)
  | [] => []
  | c :: rest =>
    match dedup rest with
    | [] => [c]
    | d :: ds => if c.2.same d.2 then c :: ds else c :: d :: ds

/-- The different values of a column in ascending order. -/
def distinct (db : Database) (table column : String) : Except Fault (List ResultRow) := do
  let rows ← db.select table [column] .always (some column)
  .ok ((dedup rows.flatten).map fun c => [c])

/-- All columns of all rows, ordered by the first of the names for a row's id. -/
def contents (db : Database) (table : String) : Except Fault (List ResultRow) := do
  let t ← db.find table
  .ok ((ordered t "rowid" t.rows).map (project t (t.columns.map (·.name))))

/-- The table that is asked for the columns of another one. -/
def columnSource : String := "pragma_table_info"

/-- The names of the columns of a table, none if there is no such table.  They
are asked for under a name that must not be that of a created table. -/
def columnNames (db : Database) (table : String) : Except Fault (List String) :=
  if (db.table? columnSource).isSome then .error (.notAFunction columnSource)
  else .ok (((db.table? table).map fun t => t.columns.map (·.name)).getD [])

/-! ## Sums -/

/-- The sum of a column so far. -/
inductive Total where
  /-- No cell other than null. -/
  | none
  /-- Integers only: their sum. -/
  | exact (n : Int64)
  /-- A real number, once there was something else than an integer or the sum of
  integers left their range; `tooLarge` says that the latter was the last of the
  two to happen. -/
  | approximate (sum : CompensatedSum) (tooLarge : Bool)

namespace Total

/-- The sum as a real number. -/
def toReal : Total → CompensatedSum
  | .none => .zero
  | .exact n => .ofInt n.toInt
  | .approximate s _ => s

/-- One more cell in a sum. -/
def add : Total → Cell → Total
  | total, .null => total
  | .none, .integer n => .exact n
  | .exact m, .integer n =>
    let sum := m.toInt + n.toInt
    if InInt64 sum then .exact (Int64.ofInt sum)
    else .approximate ((CompensatedSum.ofInt m.toInt).addInt n.toInt) true
  | .approximate s tooLarge, .integer n => .approximate (s.addInt n.toInt) tooLarge
  | total, c => .approximate (total.toReal.add c.number.toFloat) false

/-- The sum as a cell, which is null if there was nothing to add. -/
def result : Total → Except Fault Cell
  | .none => .ok .null
  | .exact n => .ok (.integer n)
  | .approximate _ true => .error .integerOverflow
  | .approximate s false => .ok (.ofReal s.value)

/-- The sum of cells in their order. -/
def ofCells (cells : List Cell) : Total := cells.foldl add .none

end Total

/-- The sum of a column over the rows that `cond` means. -/
def sum (db : Database) (table column : String) (cond : Condition) : Except Fault Cell := do
  let rows ← db.select table [column] cond none
  (Total.ofCells (rows.flatten.map (·.2))).result

end Database

end MessageCache
