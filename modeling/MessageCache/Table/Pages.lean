/-
# Pages — what a statement needs of a file

A statement that is carried out reads the pages of the parts that it looks at and
of those that it changes, in a certain order, and stops at the first that cannot
be read.  The first page of the file is needed by every statement and not listed
here.  A page that comes to be by a statement is listed too, but not read.
-/
import MessageCache.Table.Search
import MessageCache.Table.Statement

namespace MessageCache

/-- What a condition that is met through one value asks of the rows. -/
def Condition.aim : Condition → Search.Aim
  | .compare column .eq value => .having column value
  | _ => .everything

namespace Database

/-- The pages of parts of a table. -/
def pagesOf (t : Table) (parts : List Part) : List PageName :=
  parts.map (.part (nameKey t.name))

/-- The parts of a table that values are put into after the rows and the key were
looked at, the newest first. -/
def laterParts (db : Database) (t : Table) : List Part :=
  (db.parts t).reverse.filter fun part => part ≠ .rows && part ≠ .keys

/-- The pages for a search: those of the part that it begins with, and of the rows
if it found something. -/
def searchPages (db : Database) (search : Search) : List PageName :=
  match db.table? search.table with
  | none => []
  | some t =>
    let first := pagesOf t [search.part db t]
    match search.hits? db t t.rows with
    | none | some [] => first
    | some (_ :: _) => first ++ pagesOf t [.rows]

/-- The pages for an insertion.  The rows are looked at for the next id, and the key
once nothing else is wrong with the new row. -/
def insertPages (db : Database) (table : String) (values : List (String × Cell)) :
    List PageName :=
  match db.table? table with
  | none => []
  | some t =>
    let both := .rows :: if t.keyColumn?.isSome then [.keys] else []
    match db.insert table values .refuse with
    | .ok _ => pagesOf t (both ++ db.laterParts t)
    | .error (.notUnique _ _) => pagesOf t both
    | .error _ => pagesOf t [.rows]

/-- The pages for an update of one column. -/
def updatePages (db : Database) (table column : String) (cond : Condition) : List PageName :=
  match db.table? table with
  | none => []
  | some t =>
    let changed :=
      if !t.rows.any fun r => cond.holds t r then []
      else if t.namesId column then (db.parts t).reverse
      else (db.partOf? t column).toList
    db.searchPages { table, aim := cond.aim } ++ pagesOf t changed

/-- The pages for taking rows out. -/
def deletePages (db : Database) (table : String) (cond : Condition) : List PageName :=
  match db.table? table with
  | none => []
  | some t =>
    let changed := if t.rows.any fun r => cond.holds t r then (db.parts t).reverse else []
    db.searchPages { table, aim := cond.aim } ++ pagesOf t changed

/-- The pages for an index. -/
def indexPages (db : Database) (name table : String) : List PageName :=
  match db.table? table with
  | none => []
  | some t => pagesOf t [.rows, .index (nameKey name)]

/-- The pages for taking a table out, the newest first. -/
def dropPages (db : Database) (name : String) : List PageName :=
  match db.table? name with
  | none => []
  | some t => pagesOf t (db.parts t).reverse

/-- The values in a part of a table, each with the id of its row. -/
def valuesIn (db : Database) (t : Table) (part : Part) : List Row :=
  let only (key : String) : List Row := t.rows.map fun r => { r with cells := [(key, r.cell key)] }
  match part with
  | .rows => t.rows
  | .keys => ((t.keyColumn?.map (·.key)).map only).getD []
  | .index key => (((db.indexes.find? (·.key = key)).map (·.column)).map only).getD []

/-- A page is not as it was before. -/
def differs (before db : Database) : PageName → Bool
  | .first => db.edition ≠ before.edition || db.pages ≠ before.pages
  | .part key part =>
    match before.table key, db.table key with
    | some t, some u =>
      !before.hasPage (.part key part) || before.valuesIn t part ≠ db.valuesIn u part
    | none, some _ => true
    | _, none => false

end Database

end MessageCache
