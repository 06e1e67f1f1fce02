/-
# Messages

A message is published to a topic.  Its time is when it was created, or when it
is to be delivered.  A file may be attached to it, which counts against the
quota of its owner until it expires.

Only events of the kind `message` are ever stored; the other kinds are signals
between a subscriber and the service.
-/

namespace MessageCache

/-- The kind of what flows through a topic. -/
inductive Event where
  | opened
  | keepalive
  | message
  | pollRequest
deriving DecidableEq

namespace Event

/-- The kinds, in the order in which they are listed. -/
def all : List Event := [.opened, .keepalive, .message, .pollRequest]

/-- The name of a kind. -/
def name : Event → String
  | .opened => "open"
  | .keepalive => "keepalive"
  | .message => "message"
  | .pollRequest => "poll_request"

/-- The kind with a name. -/
def ofName? (s : String) : Option Event := all.find? fun e => e.name = s

theorem ofName?_name (e : Event) : ofName? e.name = some e := by
  cases e <;> decide

end Event

/-- A file attached to a message. -/
structure Attachment where
  name : String
  mimeType : String
  /-- Size in bytes. -/
  size : UInt64
  /-- When the file may be reclaimed, in seconds; zero for never. -/
  expires : Int64
  url : String
  /-- Who the file counts against; subscribers never see it. -/
  owner : String
deriving DecidableEq

namespace Attachment

def neverExpires (a : Attachment) : Bool := a.expires = 0

end Attachment

structure Message where
  id : String
  /-- Seconds since the epoch. -/
  time : Int64
  event : Event
  topic : String
  body : String
  title : String
  /-- Zero where the publisher did not set one. -/
  priority : UInt8
  tags : List String
  click : String
  attachment : Option Attachment
  encoding : String
deriving DecidableEq

namespace Message

/-- The priority of a message whose publisher did not set one. -/
def defaultPriority : UInt8 := 3

/-- An event of any kind without content, with a given id and time. -/
def ofEvent (id : String) (now : Int64) (event : Event) (topic : String) : Message :=
  { id, time := now, event, topic, body := "", title := "", priority := 0, tags := []
    click := "", attachment := none, encoding := "" }

/-- A message with only a body, with a given id and time. -/
def new (id : String) (now : Int64) (topic body : String) : Message :=
  { ofEvent id now .message topic with body }

def withId (m : Message) (id : String) : Message := { m with id }

/-- Deliver at `time` instead of now. -/
def scheduledAt (m : Message) (time : Int64) : Message := { m with time }

def withTitle (m : Message) (title : String) : Message := { m with title }

def withPriority (m : Message) (priority : UInt8) : Message := { m with priority }

def withTags (m : Message) (tags : List String) : Message := { m with tags }

def withClick (m : Message) (click : String) : Message := { m with click }

def withAttachment (m : Message) (a : Attachment) : Message := { m with attachment := some a }

def withEncoding (m : Message) (encoding : String) : Message := { m with encoding }

/-- The priority, with the default for one that was not set. -/
def effectivePriority (m : Message) : UInt8 :=
  if m.priority = 0 then defaultPriority else m.priority

/-- The message as subscribers see it: nobody owns its attachment. -/
def withoutOwner (m : Message) : Message :=
  { m with attachment := m.attachment.map fun a => { a with owner := "" } }

end Message

end MessageCache
