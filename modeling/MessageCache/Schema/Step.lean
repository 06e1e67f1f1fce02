/-
# Steps — from one layout to the next

A step leads from one version to the next one.  It adds columns, each with the
value that rows hold in it from then on unless another is put there, and may
fill one in by a rule.  The step and the record of the version it leads to are
one transaction: `Step.apply` gives a database only if all of it succeeded.
-/
import MessageCache.Schema.Version

namespace MessageCache

/-- One change of a step. -/
inductive Change where
  /-- A new column, which the stored rows get with its initial cell. -/
  | addColumn (column : Column)
  /-- A value put into a column of the rows that a condition means. -/
  | assign (column : String) (value : Cell) (cond : Condition)

def Change.statement : Change → Statement
  | .addColumn c => .addColumn messagesTable c
  | .assign column value cond => .update messagesTable column value cond

structure Step where
  /-- The version that the step leads on from. -/
  origin : Nat
  name : String
  changes : List Change

namespace Step

/-- The version that the step leads to. -/
def target (s : Step) : Nat := s.origin + 1

/-- All changes in order, without a change of the recorded version. -/
def statements (s : Step) : List Statement := s.changes.map Change.statement

/-- The changes alone. -/
def run (s : Step) (access : WriteAccess) (db : Database) : Except Fault Database :=
  transaction access s.statements db

/-- All changes in order, and the record of the new version. -/
def recorded (s : Step) : List Statement := s.statements ++ recordVersion s.target

/-- The changes and the new version. -/
def apply (s : Step) (access : WriteAccess) (db : Database) : Except Fault Database :=
  transaction access s.recorded db

/-- A new text column, empty to begin with. -/
def addText (name : String) : Change :=
  .addColumn { Layout.column name with initial := .ofString "" }

/-- A new number column, with one number to begin with. -/
def addInteger (name : String) (n : Int64) : Change :=
  .addColumn { Layout.column name with initial := .integer n }

/-- Title, priority and tags. -/
def titlePriorityTags : Step :=
  { origin := 0, name := "v001_title_priority_tags"
    changes := [addText "title", addInteger "priority" 0, addText "tags"] }

/-- Scheduled delivery: whatever was stored before was delivered at once. -/
def published : Step :=
  { origin := 1, name := "v002_published", changes := [addInteger "published" 1] }

/-- The click target and attachments. -/
def clickAttachments : Step :=
  { origin := 2, name := "v003_click_attachments"
    changes := [addText "click", addText "attachment_name", addText "attachment_type",
      addInteger "attachment_size" 0, addInteger "attachment_expires" 0,
      addText "attachment_owner", addText "attachment_url"] }

def encoding : Step :=
  { origin := 3, name := "v004_encoding", changes := [addText "encoding"] }

/-- Rows that were taken to have an attachment before there was a flag for it:
those with both a name and a url. -/
def inferredPresent : Condition :=
  .both (.compare "attachment_name" .ne (.ofString ""))
    (.compare "attachment_url" .ne (.ofString ""))

/-- The flag that says whether there is an attachment. -/
def attachmentPresent : Step :=
  { origin := 4, name := "v005_attachment_present"
    changes := [addInteger "attachment_present" 0,
      .assign "attachment_present" (.integer 1) inferredPresent] }

/-- Every step, from the oldest version to the current one. -/
def all : List Step :=
  [titlePriorityTags, published, clickAttachments, encoding, attachmentPresent]

/-- The step that leads on from a version. -/
def leadingFrom? (version : Nat) : Option Step := all.find? fun s => s.origin = version

end Step

end MessageCache
