/-
# Editions

Databases with the same tables and indexes, rows included, may still differ in how their
files are laid out and how often these were written (`Database.SameTables`).  No statement
depends on that.

The edition counts the changes of tables and indexes.  It is never taken back, and what
creates a table or adds a column moves it on; rows do not count.
-/
import MessageCache.Proofs.Table.Statement

namespace MessageCache

namespace Database

variable {db other third after : Database} {table : String} {t : Table}

/-! ## The same tables -/

/-- The same tables and indexes, of the same edition. -/
structure SameTables (db other : Database) : Prop where
  table : other.table = db.table
  indexes : other.indexes = db.indexes
  edition : other.edition = db.edition

namespace SameTables

theorem refl (db : Database) : db.SameTables db := ⟨rfl, rfl, rfl⟩

theorem symm (h : db.SameTables other) : other.SameTables db :=
  ⟨h.table.symm, h.indexes.symm, h.edition.symm⟩

theorem trans (h : db.SameTables other) (h' : other.SameTables third) : db.SameTables third :=
  ⟨h'.table.trans h.table, h'.indexes.trans h.indexes, h'.edition.trans h.edition⟩

/-- How often a file was written is not seen in tables. -/
theorem writes (db : Database) (n : Nat) : db.SameTables { db with writes := n } := ⟨rfl, rfl, rfl⟩

theorem table?_eq (h : db.SameTables other) (name : String) : other.table? name = db.table? name :=
  congrFun h.table _

theorem setTable (h : db.SameTables other) (name : String) (t : Table) :
    (db.setTable name t).SameTables (other.setTable name t) where
  table := by
    funext key
    rw [table_setTable, table_setTable, h.table]
  indexes := h.indexes
  edition := h.edition

end SameTables

/-! ## What moves the edition on -/

theorem edition_createTable {columns : List Column} (h : db.createTable table columns = .ok after) :
    after.edition = db.edition + 1 := by
  obtain ⟨-, n, rfl⟩ := createTable_eq_ok h
  rfl

theorem edition_addColumn {c : Column} (h : db.addColumn table c = .ok after) :
    after.edition = db.edition + 1 := by
  obtain ⟨t, -, -, -, rfl⟩ := addColumn_eq_ok.mp h
  rfl

theorem edition_update {column : String} {value : Cell} {cond : Condition} {n : Nat}
    (h : db.update table column value cond = .ok (n, after)) : after.edition = db.edition := by
  obtain ⟨t, rows, -, rfl⟩ := exists_rows_of_update h
  rfl

theorem edition_insertRow {row : Row} {onConflict : OnConflict}
    (h : db.insertRow table t row onConflict = .ok after) : after.edition = db.edition := by
  unfold insertRow at h
  repeat' split at h
  all_goals cases h
  all_goals rfl

theorem edition_insert {values : List (String × Cell)} {onConflict : OnConflict}
    (h : db.insert table values onConflict = .ok after) : after.edition = db.edition := by
  obtain ⟨t, given, -, -, -, -, hrow⟩ := exists_insertRow_of_insert h
  exact edition_insertRow hrow

end Database

end MessageCache
