/-
# The store — what can be asked of the stored messages

Every operation is a function of the database.  Those that change it give the
changed database when they succeed and nothing when they fail, so a failed call
leaves the store as it was.

A message is stored once under its id, is published when its time has come or
when it is marked, and is only ever removed by pruning after it was published.
-/
import MessageCache.Store.Row

namespace MessageCache.Store

/-- Each row in order, up to the first that does not read. -/
def readRows (read : ResultRow → Except ReadFault α) :
    List ResultRow → Except StoreError (List α)
  | [] => .ok []
  | row :: rest =>
    match read row with
    | .error fault => .error (.decode (.cell fault))
    | .ok a => (readRows read rest).map (a :: ·)

/-- The messages that a condition means, oldest first. -/
def messagesWhere (db : Database) (cond : Condition) : Except StoreError (List Message) := do
  let rows ← (db.select messagesTable messageColumns cond (some "time")).mapError .database
  readRows readMessage rows

/-! ## Messages -/

/-- The error of an insertion that failed. -/
def insertionError (id : String) : Fault → StoreError
  | .notUnique _ _ => .duplicateId id
  | fault => .database fault

/-- Stores a message, which is published at once if its time is not after `now`. -/
def add (db : Database) (m : Message) (now : Int64) : Except StoreError Database := do
  if m.event ≠ .message then throw (.typeMismatch m.event)
  let cells ← messageCells m (.atInsert m.time now)
  (db.insert messagesTable cells .refuse).mapError (insertionError m.id)

/-- Messages of a topic from some time on. -/
def sinceCondition (topic : String) (time : Int64) (scheduled : Bool) : Condition :=
  let inTopic := Condition.both (.compare "topic" .eq (.ofString topic))
    (.compare "time" .ge (.integer time))
  if scheduled then inTopic else .both inTopic (.compare "published" .eq (.integer 1))

/-- The messages of a topic that a poll asks for, oldest first, with or without
those that are scheduled.  A poll for no messages does not look at the database. -/
def messagesSince (db : Database) (topic : String) (since : Since) (scheduled : Bool) :
    Except StoreError (List Message) :=
  match since.timestamp with
  | none => .ok []
  | some time => messagesWhere db (sinceCondition topic time scheduled)

/-- Scheduled messages whose time is not after `now`. -/
def dueCondition (now : Int64) : Condition :=
  .both (.compare "time" .le (.integer now)) (.compare "published" .eq (.integer 0))

/-- The scheduled messages that are due, oldest first. -/
def messagesDue (db : Database) (now : Int64) : Except StoreError (List Message) :=
  messagesWhere db (dueCondition now)

/-- The message with an id. -/
def idCondition (id : String) : Condition := .compare "id" .eq (.ofString id)

/-- Publishes the message with an id; says whether there is one. -/
def markPublished (db : Database) (id : String) : Except StoreError (Bool × Database) := do
  let (affected, db) ←
    (db.update messagesTable "published" (.integer 1) (idCondition id)).mapError .database
  return (affected ≠ 0, db)

/-- The delivery state of the message with an id, if it is stored. -/
def messageState (db : Database) (id : String) : Except StoreError (Option DeliveryState) := do
  let rows ← (db.select messagesTable ["published"] (idCondition id) none).mapError .database
  match rows with
  | [] => return none
  | row :: _ =>
    let flag ← (ResultRow.flag row 0).mapError fun fault => .decode (.cell fault)
    return some (.ofFlag flag)

/-- The number of stored messages of a topic. -/
def messageCount (db : Database) (topic : String) : Except StoreError Nat :=
  (db.count messagesTable (.compare "topic" .eq (.ofString topic))).mapError .database

/-- The number of stored messages. -/
def totalMessageCount (db : Database) : Except StoreError Nat :=
  (db.count messagesTable .always).mapError .database

/-- The topics that have a stored message, in order. -/
def topics (db : Database) : Except StoreError (List Topic) := do
  let rows ← (db.distinct messagesTable "topic").mapError .database
  let ids ← readRows (ResultRow.text · 0) rows
  return ids.map Topic.mk

/-- Published messages from before a time. -/
def pruneCondition (olderThan : Int64) : Condition :=
  .both (.compare "time" .lt (.integer olderThan)) (.compare "published" .eq (.integer 1))

/-- Removes the published messages from before a time and counts them. -/
def prune (db : Database) (olderThan : Int64) : Except StoreError (Nat × Database) :=
  (db.delete messagesTable (pruneCondition olderThan)).mapError .database

/-! ## Attachments -/

/-- Messages with an attachment of an owner that has not expired. -/
def chargedCondition (owner : String) (now : Int64) : Condition :=
  .both
    (.both (.compare "attachment_present" .eq (.integer 1))
      (.compare "attachment_owner" .eq (.ofString owner)))
    (.either (.compare "attachment_expires" .eq (.integer 0))
      (.compare "attachment_expires" .ge (.integer now)))

/-- How the query for a total names its only column. -/
def totalColumn : String := "IFNULL(SUM(attachment_size), 0)"

/-- A sum of sizes as a number, which is zero where there is nothing to add. -/
def readTotal : Cell → Except StoreError UInt64
  | .null => .ok 0
  | .integer n =>
    if n < 0 then .error (.decode (.negativeTotal n)) else .ok (UInt64.ofNat n.toInt.toNat)
  | c => .error (.decode (.cell (.wrongClass c.storageClass 0 totalColumn)))

/-- The total size of an owner's attachments that have not expired. -/
def attachmentsSize (db : Database) (owner : String) (now : Int64) :
    Except StoreError UInt64 := do
  let total ← (db.sum messagesTable "attachment_size" (chargedCondition owner now)).mapError .database
  readTotal total

/-- Messages whose attachment expired before `now`. -/
def expiredCondition (now : Int64) : Condition :=
  .both
    (.both (.compare "attachment_present" .eq (.integer 1))
      (.compare "attachment_expires" .gt (.integer 0)))
    (.compare "attachment_expires" .lt (.integer now))

/-- Each id in order, up to the first that does not read. -/
def readIds : List ResultRow → Except StoreError (List String)
  | [] => .ok []
  | row :: rest =>
    match ResultRow.text row 0 with
    | .error fault => .error (.database (.read fault))
    | .ok id => (readIds rest).map (id :: ·)

/-- The ids of the messages whose attachment expired before `now`, the longest
expired first. -/
def attachmentsExpired (db : Database) (now : Int64) : Except StoreError (List String) := do
  let rows ← (db.select messagesTable ["id"] (expiredCondition now)
    (some "attachment_expires")).mapError .database
  readIds rows

end MessageCache.Store
