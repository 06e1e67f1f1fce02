/-
# Versions — which layout a store says it has

The version is recorded in a table of its own, in the row with the id 1.  A
store without a table of messages is new.  One with messages and without that
table is older than the record and has version 0; one where the record cannot
be read as a version is corrupt.
-/
import MessageCache.Schema.Layout
import MessageCache.Store.Row
import MessageCache.Table.Transaction

namespace MessageCache

/-- The name of the table with the version record. -/
def versionTable : String := "schemaVersion"

/-- The columns of the table with the version record. -/
def versionColumns : List Column :=
  [{ name := "id", affinity := .integer, notNull := false, isKey := true, initial := .null },
    { name := "version", affinity := .integer, notNull := true, isKey := false, initial := .null }]

/-- The row of the record. -/
def versionCondition : Condition := .compare "id" .eq (.integer 1)

/-- How the record is searched for, if the tables say that there is one. -/
def versionSearch (db : Database) : Option Search :=
  if db.hasTableNamed messagesTable && db.hasTableNamed versionTable then
    some { table := versionTable, aim := .having "id" (.integer 1) }
  else none

/-- A stored number as a version: versions have thirty-two bits. -/
def versionOfInteger (n : Int64) : Except StoreError Nat :=
  if InUInt32 n.toInt then .ok n.toInt.toNat else .error .corruptStore

/-- The version of a store; `none` for a new one. -/
def storedVersion (db : Database) : Except StoreError (Option Nat) :=
  if !db.hasTableNamed messagesTable then .ok none
  else if !db.hasTableNamed versionTable then .ok (some 0)
  else
    match db.select versionTable ["version"] versionCondition none with
    | .error fault => .error (.database fault)
    | .ok [] => .error .corruptStore
    | .ok (row :: _) =>
      match ResultRow.integer row 0 with
      | .error _ => .error .corruptStore
      | .ok n => (versionOfInteger n).map some

/-- Records a version. -/
def recordVersion (version : Nat) : List Statement :=
  [.createTableIfMissing versionTable versionColumns,
    .insertOrAssign versionTable
      [("id", .integer 1), ("version", .integer (Int64.ofNat version))] "id" "version"]

end MessageCache
