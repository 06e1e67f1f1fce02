/-
# Store errors

`StoreError` lists the causes for which a call on the store fails, and
`StoreError.message` words them.
-/
import MessageCache.Message.Basic
import MessageCache.Table.Fault
import MessageCache.Text.Quoted

namespace MessageCache

/-- Why a directory cannot be made. -/
inductive IoFault where
  | notFound
  | fileExists
  | notADirectory
  | nameTooLong
  | nulByte
  | other (text : String)
deriving DecidableEq

def IoFault.message : IoFault → String
  | .notFound => "No such file or directory (os error 2)"
  | .fileExists => "File exists (os error 17)"
  | .notADirectory => "Not a directory (os error 20)"
  | .nameTooLong => "File name too long (os error 36)"
  | .nulByte => "file name contained an unexpected NUL byte"
  | .other text => text

/-- Why a message cannot be stored as it is. -/
inductive MessageFault where
  /-- The size of the attachment does not fit into a stored integer. -/
  | attachmentSize (size : UInt64)
  | other (text : String)
deriving DecidableEq

def MessageFault.message : MessageFault → String
  | .attachmentSize size => s!"attachment size {size.toNat} out of range"
  | .other text => text

/-- Why what is stored cannot be turned back into what was stored. -/
inductive DecodeFault where
  | cell (fault : ReadFault)
  /-- The sizes of attachments add up to less than nothing. -/
  | negativeTotal (total : Int64)
  | other (text : String)
deriving DecidableEq

def DecodeFault.message : DecodeFault → String
  | .cell fault => fault.message
  | .negativeTotal total => s!"negative attachment total {total.toInt}"
  | .other text => text

inductive StoreError where
  /-- A failure of the database that no other cause covers. -/
  | database (fault : Fault)
  | io (fault : IoFault)
  /-- There are messages, and no readable record of their schema version. -/
  | corruptStore
  /-- The store was written by a newer release. -/
  | unsupportedVersion (found current : Nat)
  /-- No step leads on from this version. -/
  | missingMigration (version : Nat)
  /-- A step failed, and the store stays at the version `origin`. -/
  | migration (origin target : Nat) (fault : Fault)
  | duplicateId (id : String)
  /-- Only messages are stored. -/
  | typeMismatch (event : Event)
  /-- A tag that the stored form of tags cannot hold. -/
  | invalidTag (tag : String)
  | invalidMessage (fault : MessageFault)
  | decode (fault : DecodeFault)
  /-- An aggregate did not give a value. -/
  | read (text : String)
deriving DecidableEq

namespace StoreError

def message : StoreError → String
  | .database fault => s!"Database error: {fault.message}"
  | .io fault => s!"IO error: {fault.message}"
  | .corruptStore => "Cannot determine schema version: cache file may be corrupt"
  | .unsupportedVersion found current =>
    s!"Unsupported schema version {found}, this build supports up to {current}"
  | .missingMigration version => s!"No migration defined from schema version {version}"
  | .migration origin target fault =>
    s!"Migration from schema version {origin} to {target} failed: {fault.message}"
  | .duplicateId id => s!"Message {id} already exists"
  | .typeMismatch event =>
    s!"Unexpected event type {event.name}, only message events can be stored"
  | .invalidTag tag =>
    s!"Invalid tag {Text.quoted tag}: tags must be non-empty and must not contain ','"
  | .invalidMessage fault => s!"Invalid message: {fault.message}"
  | .decode fault => s!"Cannot decode stored message: {fault.message}"
  | .read text => s!"Read error: {text}"

/-- The error wraps a failure of something else. -/
def hasSource : StoreError → Bool
  | .database _ | .io _ | .migration _ _ _ => true
  | _ => false

/-- The error is one that is found out when a row is already being put into its
place. -/
def isLate : StoreError → Bool
  | .duplicateId _ => true
  | .database fault => fault.isBrokenRule
  | _ => false

end StoreError

end MessageCache
