/-
# Searches — which parts of a table a query looks at

A table lies in parts: its rows are one, and the values of its key and those of
each index on it are others, every value with the id of its row.  A query for the
values of a column is answered from a part of that column alone.  A query for the
rows with a value looks there first, and for what it found among the rows.

As long as the parts agree, a search finds what is in the rows.
-/
import MessageCache.Table.Condition

namespace MessageCache

namespace Database

/-- The part with the values of a column of a table, if there is one. -/
def partOf? (db : Database) (t : Table) (column : String) : Option Part :=
  if t.keyColumn?.any fun c => c.key = nameKey column then some .keys
  else
    (db.indexes.find? fun i => i.table = nameKey t.name && i.column = nameKey column).map
      fun i => .index i.key

/-- The part of a table that is counted to know the number of rows: the newest, or
the rows if they are as small as that. -/
def countedPart (db : Database) (t : Table) : Part :=
  if t.columns.length ≤ 1 then .rows else ((db.parts t).getLast?).getD .rows

end Database

/-- What a query asks of the rows of a table. -/
inductive Search.Aim where
  | everything
  /-- How many they are. -/
  | number
  /-- The values of a column. -/
  | values (column : String)
  /-- Everything in those with a value in a column. -/
  | having (column : String) (value : Cell)

structure Search where
  table : String
  aim : Search.Aim

namespace Search

/-- The part that a search begins with. -/
def part (db : Database) (t : Table) (search : Search) : Part :=
  match search.aim with
  | .everything => .rows
  | .number => db.countedPart t
  | .values column | .having column _ => (db.partOf? t column).getD .rows

/-- What a search has to look up among the rows: what it found in the part that it
began with, unless it has everything from there. -/
def hits? (db : Database) (t : Table) (search : Search) (first : List Row) : Option (List Row) :=
  match search.aim, search.part db t with
  | .having _ _, .rows => none
  | .having column value, _ =>
    some (first.filter fun r => (Condition.compare column .eq value).holds t r)
  | _, _ => none

/-- The row of something that was found, with the value by which it was found.
There has to be one with that id. -/
def join (search : Search) (rows : List Row) (hit : Row) : Except Fault Row :=
  match rows.find? (·.id = hit.id), search.aim with
  | none, _ => .error .malformed
  | some row, .having column _ => .ok (row.set (nameKey column) (hit.cell (nameKey column)))
  | some row, _ => .ok row

end Search

end MessageCache
