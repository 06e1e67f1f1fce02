/-
# Opening a cache

Opening a cache makes the directory of its file, connects to the file, sets the
connection up as configured and brings the store to the current layout.  A
connection does not outlive a failure, but what it did to the file stays.
-/
import MessageCache.Config
import MessageCache.Storage.Pool

namespace MessageCache

/-- Brings the store in view to the current layout. -/
def View.upgrade (v : View) (s : Files) : Except Fault Upgrade × View × Files :=
  v.perform s { Plan.reading versionSearch with pages := upgradePages } fun access db =>
    let u := ensureCurrent access db
    { answer := u, changed := if u.changed then some u.database else none, undone := u.undone }

namespace Upgrade

/-- How an upgrade ends, if it came to one. -/
def outcome : Except Fault Upgrade → Except StoreError Nat
  | .error fault => .error (.database fault)
  | .ok u => u.result

/-- What is reported of an upgrade, if it came to one. -/
def report : Except Fault Upgrade → List Progress
  | .error _ => []
  | .ok u => u.progress

end Upgrade

/-- How opening a cache ends. -/
inductive OpenOutcome where
  | opened (channel : Channel) (version : Nat)
  | failed (error : StoreError)
  /-- The program stops: the connection does not take such a timeout. -/
  | halted

/-- What opening a cache leaves behind. -/
structure Opening where
  outcome : OpenOutcome
  storage : Storage
  log : List LogEvent

/-- The longest timeout that a connection takes, in milliseconds. -/
def longestTimeout : Nat := 0x7FFFFFFF

namespace Opening

/-- The end of an opening that failed after connecting. -/
def failure (s : Storage) (c : Channel) (e : StoreError) (log : List LogEvent) : Opening :=
  { outcome := .failed e, storage := c.release s, log }

/-- Brings the store to the current layout. -/
def ofUpgrade (s : Storage) (c : Channel) (log : List LogEvent) : Opening :=
  let (u, c, s) := c.run s View.upgrade
  let log := log ++ (Upgrade.report u).map .ofProgress
  match Upgrade.outcome u with
  | .error e => failure s c e log
  | .ok version => { outcome := .opened c version, storage := s, log }

/-- Asks for write-ahead logging, and says in a warning what there is instead. -/
def ofWalRequest (s : Storage) (c : Channel) (log : List LogEvent) : Opening :=
  match c.run s View.requestWal with
  | (.error fault, c, s) => failure s c (.database fault) log
  | (.ok (), c, s) =>
    let mode := c.journalMode s
    ofUpgrade s c (log ++ if mode = "wal" then [] else [.walUnavailable mode])

/-- Sets a connection up and goes on to the store. -/
def ofConnection (config : Config) (s : Storage) (c : Channel) (log : List LogEvent) : Opening :=
  if longestTimeout < config.busyTimeout then { outcome := .halted, storage := c.release s, log }
  else if config.wal then ofWalRequest s c log
  else ofUpgrade s c log

end Opening

/-- Opens the cache that a configuration describes. -/
def openCache (s : Storage) (config : Config) : Opening :=
  let route := (Route.ofBytes (Utf8.bytes config.cacheFile)).parent
  let (disk, made) := s.files.disk.makeDirectories route
  let s := { s with files := { s.files with disk } }
  match made with
  | .error fault => { outcome := .failed (.io fault), storage := s, log := [] }
  | .ok () =>
    let log := [LogEvent.opening config.cacheFile]
    match Channel.connect s config.cacheFile with
    | .error fault => { outcome := .failed (.database fault), storage := s, log }
    | .ok (c, s) => Opening.ofConnection config s c log

/-- Opens a cache in memory. -/
def openMemory (s : Storage) : Opening := Opening.ofUpgrade s .newMemory []

end MessageCache
