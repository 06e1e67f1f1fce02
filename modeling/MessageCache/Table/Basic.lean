/-
# Tables and databases

A table has columns and rows.  A row has an id and cells, which are found by
column key.  Rows stand in the order of their ids.  A row that is not given an id
gets the next one, so that rows stand in the order of their insertion unless ids
are given.  A database finds its tables and its indexes by key.

Names of tables, columns and indexes are written in either case and mean the
same: the key of a name is its lower-case form, and everything is found by key.
-/
import MessageCache.Table.Fault

namespace MessageCache

/-- The form of a name that does not depend on case. -/
def nameKey (name : String) : String := String.ofList (name.toList.map Char.toLower)

structure Column where
  name : String
  affinity : Affinity
  /-- The column refuses null. -/
  notNull : Bool
  /-- No two rows have the same value in this column, null apart. -/
  isKey : Bool
  /-- What a row holds in this column if nothing is put into it. -/
  initial : Cell
deriving DecidableEq

def Column.key (c : Column) : String := nameKey c.name

/-- A row: its id, and cells by column key. -/
structure Row where
  id : Int
  cells : List (String × Cell)
deriving DecidableEq

/-- The cell with a key, null if there is none. -/
def findCell (key : String) : List (String × Cell) → Cell
  | [] => .null
  | d :: rest => if d.1 = key then d.2 else findCell key rest

/-- The cells with one of them replaced, or added at the end. -/
def assignCell (key : String) (c : Cell) : List (String × Cell) → List (String × Cell)
  | [] => [(key, c)]
  | d :: rest => if d.1 = key then (key, c) :: rest else d :: assignCell key c rest

theorem findCell_assignCell (key : String) (c : Cell) (cells : List (String × Cell))
    (k : String) :
    findCell k (assignCell key c cells) = if k = key then c else findCell k cells := by
  induction cells with
  | nil => by_cases h : key = k <;> simp [assignCell, findCell, h, eq_comm]
  | cons d rest ih =>
    by_cases hd : d.1 = key
    · by_cases h : key = k <;> simp [assignCell, findCell, hd, h, eq_comm]
    · by_cases h : d.1 = k
      · have hk : k ≠ key := fun e => hd (h.trans e)
        simp [assignCell, findCell, h, hk]
      · simp [assignCell, findCell, hd, h, ih]

namespace Row

/-- The cell in the column with a key. -/
def cell (row : Row) (key : String) : Cell := findCell key row.cells

/-- The row with one cell replaced. -/
def set (row : Row) (key : String) (c : Cell) : Row :=
  { row with cells := assignCell key c row.cells }

@[simp] theorem cell_set (row : Row) (key : String) (c : Cell) (k : String) :
    (row.set key c).cell k = if k = key then c else row.cell k := by
  exact findCell_assignCell key c row.cells k

end Row

structure Table where
  name : String
  columns : List Column
  rows : List Row

namespace Table

/-- The column of that name. -/
def column? (t : Table) (name : String) : Option Column :=
  t.columns.find? fun c => c.key = nameKey name

/-- The column in which no value comes twice. -/
def keyColumn? (t : Table) : Option Column := t.columns.find? (·.isKey)

/-! ## Row ids -/

/-- The keys of the names that mean the id of a row. -/
def idNames : List String := ["rowid", "oid", "_rowid_"]

/-- The name means the id of a row: it is one of three, and not that of a
column. -/
def namesId (t : Table) (name : String) : Bool :=
  nameKey name ∈ idNames && (t.column? name).isNone

/-- What a name means in a row: the cell of a column, or the row's id. -/
def value (t : Table) (row : Row) (name : String) : Cell :=
  if t.namesId name then .integer (Int64.ofInt row.id) else row.cell (nameKey name)

/-- The first of the names that means nothing in a row. -/
def missing? (t : Table) (names : List String) : Option String :=
  names.find? fun name => (t.column? name).isNone && !t.namesId name

/-- The greatest id. -/
def greatestId : Int := 0x7FFFFFFFFFFFFFFF

/-- The greatest of some ids; zero if there are none. -/
def lastId : List Int → Int
  | [] => 0
  | n :: rest => rest.foldl max n

/-- The id of the next row after rows with some ids: one more than that of any row
before it, and where there is no such id, the least positive one that is free. -/
def nextId (ids : List Int) : Int :=
  if lastId ids < greatestId then lastId ids + 1
  else
    let taken (n : Nat) : Bool := ids.any fun id => id = n + 1
    let free := ((List.range ids.length).find? fun n => !taken n).getD ids.length
    free + 1

/-- The rows with one more, put where its id belongs. -/
def place (row : Row) (rows : List Row) : List Row :=
  rows.filter (fun r => r.id < row.id) ++ row :: rows.filter fun r => row.id < r.id

theorem le_foldl_max (ids : List Int) (n : Int) :
    n ≤ ids.foldl max n ∧ ∀ id ∈ ids, id ≤ ids.foldl max n := by
  induction ids generalizing n with
  | nil => exact ⟨Int.le_refl n, fun id hid => nomatch hid⟩
  | cons k rest ih =>
    obtain ⟨hn, hrest⟩ := ih (max n k)
    refine ⟨Int.le_trans (Int.le_max_left n k) hn, fun id hid => ?_⟩
    rcases List.mem_cons.1 hid with rfl | hid
    · exact Int.le_trans (Int.le_max_right n id) hn
    · exact hrest id hid

theorem id_le_lastId {ids : List Int} {id : Int} (hid : id ∈ ids) : id ≤ lastId ids := by
  cases ids with
  | nil => cases hid
  | cons k rest =>
    rcases List.mem_cons.1 hid with rfl | hid
    · exact (le_foldl_max rest id).1
    · exact (le_foldl_max rest k).2 id hid

/-- A row with the next id comes last. -/
theorem id_lt_nextId {ids : List Int} (h : lastId ids < greatestId) {id : Int} (hid : id ∈ ids) :
    id < nextId ids := by
  rw [nextId, if_pos h]
  exact Int.lt_add_one_of_le (id_le_lastId hid)

end Table

/-! ## Databases -/

/-- An index on a column of a table, each by its key. -/
structure Index where
  key : String
  table : String
  column : String
deriving DecidableEq

/-- A part of a table. -/
inductive Part where
  | rows
  /-- The values of the key, each with the id of its row. -/
  | keys
  /-- The values in an index, by its key, each with the id of its row. -/
  | index (key : String)
deriving DecidableEq

/-- What a page of a file is for. -/
inductive PageName where
  /-- The first page, which lists tables and indexes. -/
  | first
  /-- A part of the table with a key. -/
  | part (table : String) (part : Part)
deriving DecidableEq

/-- A page, with the rows that are there. -/
structure Page where
  name : PageName
  rows : List Row

structure Database where
  /-- The table with a key. -/
  table : String → Option Table
  /-- The indexes, from the oldest on. -/
  indexes : List Index
  /-- The number of times that tables and indexes were created, altered or
  dropped. -/
  edition : Nat
  /-- The number of pages of its file: one for the list of tables, and those that
  tables and indexes take up without rows. -/
  pages : Nat
  /-- Those that are not in use any more, in the order in which they will be used
  again, each with what has been left there. -/
  free : List (Option Page)
  /-- A count of changes of its file. -/
  writes : Nat

namespace Database

/-- A database without tables. -/
def empty : Database :=
  { table := fun _ => none, indexes := [], edition := 0, pages := 0, free := [], writes := 0 }

/-- The next edition. -/
def altered (db : Database) : Database := { db with edition := db.edition + 1 }

/-- The database when it has a file with something in it. -/
def begun (db : Database) : Database := { db with pages := max 1 db.pages }

/-- The database with `n` more pages in use. -/
def taking (n : Nat) (db : Database) : Database :=
  { db.begun with
    pages := db.begun.pages + (n - db.free.length)
    free := db.free.drop n }

/-- The table of that name. -/
def table? (db : Database) (name : String) : Option Table := db.table (nameKey name)

/-- The table that a statement names. -/
def find (db : Database) (name : String) : Except Fault Table :=
  match db.table? name with
  | some t => .ok t
  | none => .error (.noSuchTable name)

/-- The database with the table of that name replaced. -/
def setTable (db : Database) (name : String) (t : Table) : Database :=
  { db with table := fun k => if k = nameKey name then some t else db.table k }

/-- A table is listed under exactly this name, case included. -/
def hasTableNamed (db : Database) (name : String) : Bool :=
  match db.table? name with
  | some t => t.name = name
  | none => false

/-- There is an index of that name. -/
def hasIndex (db : Database) (name : String) : Bool := db.indexes.any fun i => i.key = nameKey name

/-- What stands on the first page of a file about changes of the file. -/
structure Stamp where
  writes : Nat
  pages : Nat
  freePages : Nat
deriving DecidableEq

def stamp (db : Database) : Stamp :=
  { writes := db.writes, pages := db.pages, freePages := db.free.length }

/-- The parts of a table, from the oldest on. -/
def parts (db : Database) (t : Table) : List Part :=
  .rows :: (if t.keyColumn?.isSome then [.keys] else []) ++
    (db.indexes.filter fun i => i.table = nameKey t.name).map (.index ·.key)

/-- A database has a page. -/
def hasPage (db : Database) : PageName → Bool
  | .first => true
  | .part key part => (db.table key).any fun t => part ∈ db.parts t

/-- The rows on a page.  They can be read for some time after their table was
dropped. -/
def page? (db : Database) (name : PageName) : Option (List Row) :=
  match name with
  | .first => some []
  | .part key _ =>
    match if db.hasPage name then db.table key else none with
    | some t => some t.rows
    | none => (db.free.find? fun p => p.any (·.name = name)).join.map (·.rows)

/-- The tables and indexes alone, without rows. -/
def outline (db : Database) : Database :=
  { db with table := fun key => (db.table key).map fun t => { t with rows := [] } }

end Database

end MessageCache
