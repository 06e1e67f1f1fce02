/-
# Calls — the operations of the store as data

A `Call` names an operation and its arguments.  `Call.run` carries it out on a
database: the answer, or the error, and the database afterwards, which is the
same one if the call failed or only reads.  `run` carries out calls one after
the other, so that what a store can become is what some list of calls makes of
it.
-/
import MessageCache.Store.Operations
import MessageCache.Log

namespace MessageCache.Store

inductive Call where
  | add (message : Message) (now : Int64)
  | since (topic : String) (bound : Since) (scheduled : Bool)
  | due (now : Int64)
  | mark (id : String)
  | state (id : String)
  | count (topic : String)
  | total
  | topics
  | prune (olderThan : Int64)
  | size (owner : String) (now : Int64)
  | expired (now : Int64)
deriving DecidableEq

/-- The answer to a call. -/
inductive Reply where
  | stored
  | messages (messages : List Message)
  | marked (found : Bool)
  | state (state : Option DeliveryState)
  | count (n : Nat)
  | topics (topics : List Topic)
  | pruned (n : Nat)
  | size (n : UInt64)
  | ids (ids : List String)
deriving DecidableEq

/-- The answer tells of a change. -/
def Reply.isChange : Reply → Bool
  | .stored => true
  | .marked found => found
  | .pruned n => n ≠ 0
  | _ => false

/-- A reading call: the database stays as it is. -/
def reading (db : Database) (r : Except StoreError Reply) : Except StoreError Reply × Database :=
  (r, db)

/-- A writing call: a failure leaves the database as it was. -/
def writing (db : Database) : Except StoreError (Reply × Database) →
    Except StoreError Reply × Database
  | .error e => (.error e, db)
  | .ok (reply, db) => (.ok reply, db)

namespace Call

/-- The answer to a call and the database after it. -/
def run (db : Database) : Call → Except StoreError Reply × Database
  | .add m now => writing db ((Store.add db m now).map fun db => (.stored, db))
  | .since topic bound scheduled =>
    reading db ((messagesSince db topic bound scheduled).map .messages)
  | .due now => reading db ((messagesDue db now).map .messages)
  | .mark id => writing db ((markPublished db id).map fun (found, db) => (.marked found, db))
  | .state id => reading db ((messageState db id).map .state)
  | .count topic => reading db ((messageCount db topic).map .count)
  | .total => reading db ((totalMessageCount db).map .count)
  | .topics => reading db ((Store.topics db).map .topics)
  | .prune olderThan => writing db ((Store.prune db olderThan).map fun (n, db) => (.pruned n, db))
  | .size owner now => reading db ((attachmentsSize db owner now).map .size)
  | .expired now => reading db ((attachmentsExpired db now).map .ids)

/-- The call is one of those that change the database. -/
def writes : Call → Bool
  | .add _ _ | .mark _ | .prune _ => true
  | _ => false

/-- The answer to a call that does not look at the database. -/
def immediate? : Call → Option (Except StoreError Reply)
  | .add m now =>
    if m.event ≠ .message then some (.error (.typeMismatch m.event))
    else
      match messageCells m (.atInsert m.time now) with
      | .error e => some (.error e)
      | .ok _ => none
  | .since _ bound _ => if bound.timestamp.isNone then some (.ok (.messages [])) else none
  | _ => none

/-- An immediate answer is the one that any database would give. -/
theorem run_eq_of_immediate {call : Call} {answer : Except StoreError Reply}
    (h : call.immediate? = some answer) (db : Database) : call.run db = (answer, db) := by
  cases call with
  | add m now =>
    rw [immediate?] at h
    rw [run, Store.add]
    split at h
    · rename_i hm
      cases h
      rw [if_pos hm]
      rfl
    · rename_i hm
      rw [if_neg hm]
      split at h
      · rename_i e he
        cases h
        rw [he]
        rfl
      · cases h
  | since topic bound scheduled =>
    rw [immediate?] at h
    split at h
    · rename_i hb
      cases h
      rw [run, messagesSince, Option.isNone_iff_eq_none.1 hb]
      rfl
    · cases h
  | _ => cases h

/-- The answer to a call with some access, and the database after it if the call
changed that. -/
def runWith (access : WriteAccess) (db : Database) (call : Call) :
    Except StoreError Reply × Option Database :=
  let done := call.run db
  if call.writes then
    match access.pass StoreError.isLate .database Reply.isChange done.1 with
    | .ok reply => (.ok reply, if reply.isChange then some done.2 else none)
    | .error e => (.error e, none)
  else (done.1, none)

/-- Access does not change an answer that it allows. -/
theorem runWith_granted (db : Database) (call : Call) :
    (call.runWith .granted db).1 = (call.run db).1 := by
  simp only [runWith, WriteAccess.pass_granted]
  cases (call.run db).1 <;> cases call.writes <;> rfl

/-- How a call that only reads searches the messages. -/
def search? : Call → Option Search
  | .add _ _ | .mark _ | .prune _ => none
  | .since topic _ _ => some { table := messagesTable, aim := .having "topic" (.ofString topic) }
  | .state id => some { table := messagesTable, aim := .having "id" (.ofString id) }
  | .count _ | .topics => some { table := messagesTable, aim := .values "topic" }
  | .total => some { table := messagesTable, aim := .number }
  | .due _ | .size _ _ | .expired _ => some { table := messagesTable, aim := .everything }

/-- The pages that a call needs. -/
def pages (call : Call) (db : Database) : List PageName :=
  match call with
  | .add m now =>
    match messageCells m (.atInsert m.time now) with
    | .ok cells => db.insertPages messagesTable cells
    | .error _ => []
  | .mark id => db.updatePages messagesTable "published" (idCondition id)
  | .prune olderThan => db.deletePages messagesTable (pruneCondition olderThan)
  | _ => (call.search?.map db.searchPages).getD []

/-- What can be told of a call before it is carried out. -/
def plan (call : Call) : Plan :=
  { flaw := none
    check := fun known =>
      match (call.run known).1 with
      | .error (.database fault) => Plan.ofResult (fun _ => call.writes) (.error fault : Except Fault Unit)
      | _ => .ok call.writes
    search := fun _ => call.search?
    pages := call.pages }

/-- What a call does with some access. -/
def effect (call : Call) (access : WriteAccess) (db : Database) :
    Effect (Except StoreError Reply) :=
  let (answer, changed) := call.runWith access db
  { answer, changed, undone := false }

/-- What a call writes to the log, by its answer. -/
def log : Call → Except StoreError Reply → List LogEvent
  | .add m now, .ok .stored => [.stored m.id m.topic (.atInsert m.time now)]
  | .mark id, .ok (.marked false) => [.markedMissing id]
  | .prune olderThan, .ok (.pruned n) => [.pruned olderThan n]
  | _, _ => []

end Call

/-- Calls one after the other: their answers and the database after the last. -/
def run (db : Database) : List Call → List (Except StoreError Reply) × Database
  | [] => ([], db)
  | call :: rest =>
    let (answer, db) := call.run db
    let (answers, db) := run db rest
    (answer :: answers, db)

end MessageCache.Store
