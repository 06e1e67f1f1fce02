/-
# Upgrades — a store brought to the current layout

A new store is created in the current layout at once.  Any other takes the
steps from its version on, one transaction each, so that an upgrade that stops
in the middle leaves the store at the version it reached, and goes on from there
the next time.  The report of an upgrade says what happened in order.
-/
import MessageCache.Schema.Step

namespace MessageCache

/-- What an upgrade reports. -/
inductive Progress where
  | createdFresh (version : Nat)
  | stepStarted (origin target : Nat) (name : String)
  | stepFinished (origin target : Nat)
  | upToDate (version : Nat)
deriving DecidableEq

/-- The end of an upgrade: the version reached or the error, the database as it
is then, and what was reported. -/
structure Upgrade where
  result : Except StoreError Nat
  database : Database
  progress : List Progress
  /-- The transaction that failed had changed tables or indexes by then. -/
  undone : Bool

/-- The database was changed when this was reported. -/
def Progress.isChange : Progress → Bool
  | .createdFresh _ | .stepFinished _ _ => true
  | .stepStarted _ _ _ | .upToDate _ => false

/-- The name of the index on the topic of messages. -/
def topicIndex : String := "idx_topic"

/-- What makes a store of a database without messages. -/
def createFresh : List Statement :=
  [.createTableIfMissing messagesTable Layout.current,
    .createIndexIfMissing topicIndex messagesTable "topic"] ++
  recordVersion Layout.currentVersion

namespace Upgrade

/-- The upgrade changed something. -/
def changed (u : Upgrade) : Bool := u.progress.any Progress.isChange

/-- Progress made before an upgrade. -/
def after (progress : List Progress) (u : Upgrade) : Upgrade :=
  { u with progress := progress ++ u.progress }

/-- An upgrade that ends with an error. -/
def failed (e : StoreError) (db : Database) (progress : List Progress) : Upgrade :=
  { result := .error e, database := db, progress, undone := false }

/-- The next `n` steps from a version on. -/
def climb (access : WriteAccess) : Nat → Nat → Database → Upgrade
  | 0, version, db =>
    { result := .ok version, database := db, progress := [.upToDate version], undone := false }
  | n + 1, version, db =>
    match Step.leadingFrom? version with
    | none => failed (.missingMigration version) db []
    | some step =>
      match step.apply access db with
      | .error fault =>
        { failed (.migration step.origin step.target fault) db
            [.stepStarted step.origin step.target step.name] with
          undone := editionReached access step.recorded db ≠ db.edition }
      | .ok db =>
        (climb access n step.target db).after
          [.stepStarted step.origin step.target step.name,
            .stepFinished step.origin step.target]

end Upgrade

/-- The pages that bringing a store to the current layout needs. -/
def upgradePages (db : Database) : List PageName :=
  ((versionSearch db).map db.searchPages).getD [] ++
    match storedVersion db with
    | .error _ => []
    | .ok none => transactionPages createFresh db
    | .ok (some version) =>
      transactionPages ((Step.all.drop version).map Step.recorded).flatten db

/-- Brings a store to the current layout. -/
def ensureCurrent (access : WriteAccess) (db : Database) : Upgrade :=
  match storedVersion db with
  | .error e => .failed e db []
  | .ok none =>
    match transaction access createFresh db with
    | .error fault =>
      { Upgrade.failed (.database fault) db [] with
        undone := editionReached access createFresh db ≠ db.edition }
    | .ok db =>
      { result := .ok Layout.currentVersion, database := db
        progress := [.createdFresh Layout.currentVersion], undone := false }
  | .ok (some version) =>
    if Layout.currentVersion < version then
      .failed (.unsupportedVersion version Layout.currentVersion) db []
    else Upgrade.climb access (Layout.currentVersion - version) version db

end MessageCache
