/-
# Conditions — which rows a statement means

A condition compares columns with given cells.  A comparison with null is never
true, and as nothing here negates a condition, "not known" and "false" need not
be told apart.  The given cell first takes the affinity of the column it is
compared with.
-/
import MessageCache.Table.Basic

namespace MessageCache

/-- How two cells are compared. -/
inductive Comparison where
  | eq
  | ne
  | lt
  | le
  | gt
  | ge
deriving DecidableEq

namespace Comparison

/-- The comparison between two cells that are not null. -/
def test (op : Comparison) (a b : Cell) : Bool :=
  match op with
  | .eq => a.same b
  | .ne => !a.same b
  | .lt => !b.le a
  | .le => a.le b
  | .gt => !a.le b
  | .ge => b.le a

/-- The comparison holds: neither cell is null, and they compare that way. -/
def holds (op : Comparison) (a b : Cell) : Bool :=
  a ≠ .null && b ≠ .null && op.test a b

end Comparison

inductive Condition where
  | always
  | compare (column : String) (op : Comparison) (value : Cell)
  | both (p q : Condition)
  | either (p q : Condition)

namespace Condition

/-- The columns that a condition names, in the order in which it names them. -/
def columns : Condition → List String
  | .always => []
  | .compare column _ _ => [column]
  | .both p q => p.columns ++ q.columns
  | .either p q => p.columns ++ q.columns

/-- The condition holds for a row of a table. -/
def holds (t : Table) (row : Row) : Condition → Bool
  | .always => true
  | .compare column op value =>
    match t.column? column with
    | some c => op.holds (row.cell c.key) (c.affinity.apply value)
    | none => false
  | .both p q => p.holds t row && q.holds t row
  | .either p q => p.holds t row || q.holds t row

end Condition

end MessageCache
