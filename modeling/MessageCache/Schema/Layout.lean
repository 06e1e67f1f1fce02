/-
# Layouts — the columns of the table of messages, release by release

`Layout.released` lists the columns that each release since version 0 created
its table with.  `Layout.current` is the layout of a new store: the same columns
as those of the last release, in the order in which they belong together.
-/
import MessageCache.Table.Basic

namespace MessageCache.Layout

/-- The schema version of a new store. -/
def currentVersion : Nat := 5

/-- The columns that hold numbers. -/
def integerColumns : List String :=
  ["time", "priority", "published", "attachment_size", "attachment_expires", "attachment_present"]

/-- The column of messages with a name: `id` is the key and may be null, numbers
are kept as numbers, and everything else is text.  No column has a value of its
own, so that an insertion has to name all that are not null. -/
def column (name : String) : Column :=
  { name
    affinity := if nameKey name ∈ integerColumns then .integer else .text
    notNull := nameKey name ≠ "id"
    isKey := nameKey name = "id"
    initial := .null }

/-- A column that may be null. -/
def nullable (c : Column) : Column := { c with notNull := false }

/-- The names of the columns that a version added to those of the version before. -/
def added : Nat → List String
  | 0 => ["id", "time", "topic", "message"]
  | 1 => ["title", "priority", "tags"]
  | 2 => ["published"]
  | 3 => ["click", "attachment_name", "attachment_type", "attachment_size", "attachment_expires",
      "attachment_url", "attachment_owner"]
  | 4 => ["encoding"]
  | 5 => ["attachment_present"]
  | _ => []

/-- The names of the columns of a version, in their order in the table. -/
def releasedNames : Nat → List String
  | 0 => added 0
  | v + 1 => releasedNames v ++ added (v + 1)

/-- The columns of the table that the release of a version created. -/
def released (version : Nat) : List Column := (releasedNames version).map column

/-- The columns of a new store. -/
def current : List Column :=
  ["id", "time", "topic", "message", "title", "priority", "tags", "click", "attachment_name",
    "attachment_type", "attachment_size", "attachment_expires", "attachment_url",
    "attachment_owner", "encoding", "published", "attachment_present"].map column

end MessageCache.Layout
