/-
# Configuration

Where the cache file is, how long a call waits for a locked database, and
whether write-ahead logging is asked for.  Each setting has a default and an
environment variable of its own that overrides it.
-/
import MessageCache.Log

namespace MessageCache

structure Config where
  cacheFile : String
  /-- Milliseconds. -/
  busyTimeout : Nat
  wal : Bool
deriving DecidableEq

namespace Config

def defaultCacheFile : String := "herald-cache.db"

def default : Config := { cacheFile := defaultCacheFile, busyTimeout := 5000, wal := true }

/-- The defaults for a cache in a given file. -/
def forFile (path : String) : Config := { default with cacheFile := path }

/-! ## The environment -/

def cacheFileVariable : String := "HERALD_CACHE_FILE"

def busyTimeoutVariable : String := "HERALD_CACHE_BUSY_TIMEOUT_MS"

def walVariable : String := "HERALD_CACHE_WAL"

/-- The values of environment variables, which are bytes. -/
abbrev Environment := String → Option Bytes

/-- The text of a variable; bytes that are no text count as not set. -/
def text? (env : Environment) (name : String) : Option String :=
  (env name).bind fun b => (Utf8.read b).toOption

/-- Why a text is not a number of milliseconds. -/
inductive NumberFault where
  | empty
  | invalidDigit
  | tooLarge
deriving DecidableEq

def NumberFault.message : NumberFault → String
  | .empty => "cannot parse integer from empty string"
  | .invalidDigit => "invalid digit found in string"
  | .tooLarge => "number too large to fit in target type"

/-- Digits as a number of sixty-four bits, read from the left. -/
def readDigits (n : Nat) : List Char → Except NumberFault Nat
  | [] => .ok n
  | c :: rest =>
    if !c.isDigit then .error .invalidDigit
    else
      let m := 10 * n + Digits.value c
      if InUInt64 m then readDigits m rest else .error .tooLarge

/-- A number of sixty-four bits: digits after at most one plus sign. -/
def readNumber (s : String) : Except NumberFault Nat :=
  match s.toList with
  | [] => .error .empty
  | ['+'] => .error .invalidDigit
  | '+' :: rest => readDigits 0 rest
  | cs => readDigits 0 cs

/-- The cache file: what the variable says unless that is empty. -/
def cacheFileOf (env : Environment) : String :=
  match text? env cacheFileVariable with
  | none => defaultCacheFile
  | some path => if path = "" then defaultCacheFile else path

/-- The timeout, and a warning about a value that is not a number. -/
def busyTimeoutOf (env : Environment) : Nat × List LogEvent :=
  match text? env busyTimeoutVariable with
  | none => (default.busyTimeout, [])
  | some value =>
    match readNumber value with
    | .ok ms => (ms, [])
    | .error fault => (default.busyTimeout, [.invalidTimeout value fault.message])

/-- Write-ahead logging: any value but two asks for it. -/
def walOf (env : Environment) : Bool :=
  match text? env walVariable with
  | none => default.wal
  | some value => value ≠ "false" && value ≠ "0"

/-- The configuration that an environment asks for, and the warnings about it. -/
def ofEnvironment (env : Environment) : Config × List LogEvent :=
  let (busyTimeout, warnings) := busyTimeoutOf env
  ({ cacheFile := cacheFileOf env, busyTimeout, wal := walOf env }, warnings)

end Config

end MessageCache
