/-
# Sessions — named connections to caches

A session holds connections by name.  A connection is bare, or it is an opened
store, which knows the version that it was brought to.  Connections to one file
see each other's changes, since the file's content is in the storage and not
with the connection.  A connection ends when it is closed, or when another one
takes its name.
-/
import MessageCache.Opening
import MessageCache.Store.Call

namespace MessageCache

structure Connection where
  channel : Channel
  /-- The version of an opened store; none for a bare connection. -/
  version : Option Nat
  /-- The names under which tables for settings were first found. -/
  settings : List String

namespace Connection

/-- A connection that is not an opened store. -/
def bare (channel : Channel) : Connection := { channel, version := none, settings := [] }

/-- A connection to a store of some version. -/
def opened (channel : Channel) (version : Nat) : Connection :=
  { channel, version := some version, settings := [] }

/-- The name of a table for a setting: the one that it was first found under. -/
def settingName (c : Connection) (name : String) : String :=
  (c.settings.find? fun n => nameKey n = nameKey name).getD name

/-- The connection after a table for a setting was found. -/
def finding (c : Connection) (name : String) : Connection :=
  { c with settings := c.settings ++ [name] }

end Connection

structure Session where
  storage : Storage
  connection : String → Option Connection

namespace Session

/-- No connection, and nothing to connect to. -/
def start : Session := { storage := .empty, connection := fun _ => none }

/-- The session with a connection under a name. -/
def set (s : Session) (name : String) (c : Option Connection) : Session :=
  { s with connection := fun n => if n = name then c else s.connection n }

/-- The session with a connection changed. -/
def modify (s : Session) (name : String) (f : Connection → Connection) : Session :=
  s.set name ((s.connection name).map f)

/-! ## Connections -/

/-- Ends a connection. -/
def close (s : Session) (name : String) : Session :=
  match s.connection name with
  | none => s
  | some c => { s with storage := c.channel.release s.storage }.set name none

/-- The session with a new connection in the place of any other of that name. -/
def replace (s : Session) (name : String) (c : Connection) : Session :=
  (s.close name).set name (some c)

/-- Makes a bare connection; without a file, to a new database in memory. -/
def connect (s : Session) (name : String) (file : Option String) : Except Fault Session := do
  let (channel, storage) ← Channel.connect s.storage (file.getD Place.memoryName)
  return { s with storage }.replace name (.bare channel)

/-- A store that was opened takes the place of the connection of that name; a
failure leaves that connection alone. -/
def adopt (s : Session) (name : String) (o : Opening) : Session :=
  let s := { s with storage := o.storage }
  match o.outcome with
  | .opened channel version => s.replace name (.opened channel version)
  | _ => s

/-! ## Statements -/

/-- Does something with the view of a connection. -/
def run (s : Session) (name : String) (c : Connection) (f : View → Files → α × View × Files) :
    α × Session :=
  let (a, channel, storage) := c.channel.run s.storage f
  (a, { s with storage }.set name (some { c with channel }))

/-- Carries out a statement. -/
def perform (s : Session) (name : String) (c : Connection) (plan : Plan)
    (f : WriteAccess → Database → Effect (Except Fault α)) : Except Fault α × Session :=
  let (answer, s) := s.run name c fun v files => v.perform files plan f
  (answer >>= id, s)

/-- A statement that only reads. -/
def read (s : Session) (name : String) (c : Connection) (search : Database → Option Search)
    (f : Database → α) : Except Fault α × Session :=
  s.perform name c (.reading search) fun _ db => .none (.ok (f db))

/-- A query. -/
def query (s : Session) (name : String) (c : Connection) (search : Database → Option Search)
    (f : Database → Except Fault α) : Except Fault α × Session :=
  s.perform name c { Plan.reading search with check := fun known => (f known).map fun _ => false }
    fun _ db => .none (f db)

/-- A statement without an answer. -/
def execute (s : Session) (name : String) (c : Connection) (statement : Statement) :
    Except Fault Unit × Session :=
  s.perform name c statement.plan fun access db =>
    .ofResult ((statement.execute access db).map ((), ·))

/-- An update: the number of rows that it changed. -/
def update (s : Session) (name : String) (c : Connection) (table column : String) (value : Cell)
    (cond : Condition) : Except Fault Nat × Session :=
  let plan : Plan :=
    { flaw := Database.nameFault? column
      check := fun known =>
        Plan.ofResult (fun _ => true) (known.update table column value cond)
      search := fun _ => none
      pages := fun db => db.updatePages table column cond }
  s.perform name c plan fun access db =>
    .ofResult ((access.pass Fault.isBrokenRule id (·.1 ≠ 0)
      (db.update table column value cond)).map fun (count, db) =>
        (count, if count = 0 then none else some db))

/-- The names of the columns of a table, none if there is no such table.  The table
that is asked for them is found even if it then cannot answer. -/
def columnNames (s : Session) (name : String) (c : Connection) (table : String) :
    Except Fault (List String) × Session :=
  let known := (c.channel.view s.storage).outline.isSome
  match s.query name c (fun _ => none) fun db => db.columnNames table with
  | (.error (.notAFunction own), s) => (.error (.notAFunction own), s)
  | (answer, s) =>
    if known || answer.isOk then (answer, s.modify name (·.finding Database.columnSource))
    else (answer, s)

/-- Drops a table. -/
def dropTable (s : Session) (name : String) (c : Connection) (table : String) :
    Except Fault Unit × Session :=
  match s.execute name c (.dropTable table) with
  | (.error (.mayNotBeDropped own), s) =>
    (.error (.mayNotBeDropped (c.settingName own)), s.modify name (·.finding own))
  | r => r

/-! ## Stores -/

/-- The changes of a step without a record of the version. -/
def runStep (s : Session) (name : String) (c : Connection) (step : Step) :
    Except Fault Unit × Session :=
  s.perform name c (.ofTransaction step.statements) fun access db =>
    match step.run access db with
    | .error fault =>
      { answer := .error fault, changed := none
        undone := editionReached access step.statements db ≠ db.edition }
    | .ok after => { answer := .ok (), changed := some after, undone := false }

/-- Brings the store of a connection to the current layout; the connection stays
as it is. -/
def ensure (s : Session) (name : String) (c : Connection) :
    Except StoreError Nat × List Progress × Session :=
  let (u, s) := s.run name c View.upgrade
  (Upgrade.outcome u, Upgrade.report u, s)

/-- Makes an opened store of a bare connection, which is lost on a failure. -/
def openStore (s : Session) (name : String) (c : Connection) :
    Except StoreError Nat × List Progress × Session :=
  match s.ensure name c with
  | (.error e, progress, s) => (.error e, progress, s.close name)
  | (.ok version, progress, s) =>
    (.ok version, progress, s.modify name fun c => { c with version := some version })

/-- The answer of the store behind a connection to a call, and the session after it. -/
def answer (s : Session) (name : String) (c : Connection) (call : Store.Call) :
    Except StoreError Store.Reply × Session :=
  match s.run name c fun v files => v.perform files call.plan call.effect with
  | (.error fault, s) => (.error (.database fault), s)
  | (.ok answer, s) => (answer, s)

/-- A call: its answer, and what it writes to the log.  Only an opened store takes calls,
a bare connection takes none. -/
def call (s : Session) (name : String) (c : Connection) (call : Store.Call) :
    Option (Except StoreError Store.Reply × List LogEvent × Session) :=
  c.version.map fun _ =>
    match call.immediate? with
    | some answer => (answer, call.log answer, s)
    | none =>
      let (answer, s) := s.answer name c call
      (answer, call.log answer, s)

end Session

end MessageCache
