/-
# The log

What the cache writes to its log: an event has a level, a fixed text and named
fields.
-/
import MessageCache.Message.Delivery
import MessageCache.Schema.Upgrade

namespace MessageCache

inductive LogLevel where
  | trace
  | debug
  | info
  | warn
deriving DecidableEq

def LogLevel.name : LogLevel → String
  | .trace => "TRACE"
  | .debug => "DEBUG"
  | .info => "INFO"
  | .warn => "WARN"

/-- The value of a field of a log event. -/
inductive LogField where
  | integer (n : Int)
  | text (s : String)
deriving DecidableEq

inductive LogEvent where
  | opening (path : String)
  | walUnavailable (mode : String)
  | createdCache (version : Nat)
  | migrating (origin target : Nat) (name : String)
  | stepCommitted (origin target : Nat)
  | schemaCurrent (version : Nat)
  | stored (id topic : String) (state : DeliveryState)
  | markedMissing (id : String)
  | pruned (olderThan : Int64) (deleted : Nat)
  | invalidTimeout (value error : String)
deriving DecidableEq

/-- The name of a delivery state in the log. -/
def DeliveryState.logName : DeliveryState → String
  | .scheduled => "Scheduled"
  | .published => "Published"

namespace LogEvent

def level : LogEvent → LogLevel
  | .opening _ => .info
  | .walUnavailable _ => .warn
  | .createdCache _ => .info
  | .migrating _ _ _ => .info
  | .stepCommitted _ _ => .debug
  | .schemaCurrent _ => .debug
  | .stored _ _ _ => .trace
  | .markedMissing _ => .debug
  | .pruned _ _ => .debug
  | .invalidTimeout _ _ => .warn

def message : LogEvent → String
  | .opening _ => "opening message cache"
  | .walUnavailable _ => "WAL journal mode not available"
  | .createdCache _ => "created new message cache"
  | .migrating _ _ _ => "migrating message cache schema"
  | .stepCommitted _ _ => "migration step committed"
  | .schemaCurrent _ => "message cache schema is current"
  | .stored _ _ _ => "stored message"
  | .markedMissing _ => "mark_published: message not found"
  | .pruned _ _ => "pruned message cache"
  | .invalidTimeout _ _ => "Invalid HERALD_CACHE_BUSY_TIMEOUT_MS, using default"

def fields : LogEvent → List (String × LogField)
  | .opening path => [("path", .text path)]
  | .walUnavailable mode => [("journal_mode", .text mode)]
  | .createdCache version => [("version", .integer version)]
  | .migrating origin target name =>
    [("from", .integer origin), ("to", .integer target), ("migration", .text name)]
  | .stepCommitted origin target => [("from", .integer origin), ("to", .integer target)]
  | .schemaCurrent version => [("version", .integer version)]
  | .stored id topic state =>
    [("id", .text id), ("topic", .text topic), ("state", .text state.logName)]
  | .markedMissing id => [("id", .text id)]
  | .pruned olderThan deleted =>
    [("older_than", .integer olderThan.toInt), ("deleted", .integer deleted)]
  | .invalidTimeout value error => [("value", .text value), ("error", .text error)]

/-- How the progress of an upgrade appears in the log. -/
def ofProgress : Progress → LogEvent
  | .createdFresh version => .createdCache version
  | .stepStarted origin target name => .migrating origin target name
  | .stepFinished origin target => .stepCommitted origin target
  | .upToDate version => .schemaCurrent version

end LogEvent

end MessageCache
