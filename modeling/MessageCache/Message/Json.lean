/-
# Messages as JSON

A field that holds its default is left out of what is written, and the default
is filled in for a field that is missing from what is read.  The owner of an
attachment is read and never written.

An event is read from its name, or from an object with the name as its only key
and null as the value.
-/
import MessageCache.Message.Delivery
import MessageCache.Json.Record
import MessageCache.Json.Scan

namespace MessageCache

open Json

/-! ## Events -/

namespace Event

def toValue (e : Event) : Value := .text e.name

/-- The problem of a name that no kind has. -/
def unknown (name : String) : Problem :=
  .unfit (s!"unknown variant `{name}`, expected one of " ++
    ", ".intercalate (all.map fun e => s!"`{e.name}`"))

/-- An event from its name, which only a text can be. -/
def ofSourceName : Source → Except Problem Event
  | .text s =>
    match ofName? s with
    | some e => .ok e
    | none => .error (unknown s)
  | _ => .error .malformed

/-- The problem of an object that does not have one key. -/
def notOneKey (origin : Origin) : Problem :=
  match origin with
  | .document => .malformed
  | .value => .unfit "invalid value: map, expected map with a single key"

def read (origin : Origin) : Source → Except Problem Event
  | .text s => ofSourceName (.text s)
  | .object members =>
    match origin, visited origin members with
    | _, [(k, v)] => do
      let e ← ofSourceName k
      readNull v
      return e
    | .document, (k, v) :: _ => do
      let _ ← ofSourceName k
      readNull v
      throw (notOneKey .document)
    | origin, _ => .error (notOneKey origin)
  | s =>
    match origin with
    | .document => .error .malformed
    | .value => .error (s.mismatch "string or map")

end Event

/-! ## Attachments -/

inductive AttachmentField where
  | name | type | size | expires | url | owner
deriving DecidableEq

namespace AttachmentField

def key : AttachmentField → String
  | .name => "name"
  | .type => "type"
  | .size => "size"
  | .expires => "expires"
  | .url => "url"
  | .owner => "owner"

def Carrier : AttachmentField → Type
  | .name | .type | .url | .owner => String
  | .size => UInt64
  | .expires => Int64

def read : (f : AttachmentField) → Source → Except Problem f.Carrier
  | .name => readText
  | .type => readText
  | .size => readUInt64
  | .expires => readInt64
  | .url => readText
  | .owner => readText

def blank : (f : AttachmentField) → f.Carrier
  | .name => ""
  | .type => ""
  | .size => (0 : UInt64)
  | .expires => (0 : Int64)
  | .url => ""
  | .owner => ""

def format : RecordFormat AttachmentField where
  title := "struct Attachment"
  fields := [.name, .type, .size, .expires, .url, .owner]
  key := key
  Carrier := Carrier
  read _ := read
  required f := f = .name || f = .url
  blank := blank

end AttachmentField

namespace Attachment

def ofFields (get : (f : AttachmentField) → f.Carrier) : Attachment :=
  { name := get .name, mimeType := get .type, size := get .size, expires := get .expires
    url := get .url, owner := get .owner }

def read (origin : Origin) (s : Source) : Except Problem Attachment :=
  (AttachmentField.format.readRecord origin s).map ofFields

/-- What subscribers see: the owner is not there. -/
def toValue (a : Attachment) : Value :=
  .object (
    [("name", .text a.name)] ++
    (if a.mimeType = "" then [] else [("type", .text a.mimeType)]) ++
    [("size", .integer a.size.toNat)] ++
    (if a.expires = 0 then [] else [("expires", .integer a.expires.toInt)]) ++
    [("url", .text a.url)])

end Attachment

/-! ## Messages -/

inductive MessageField where
  | id | time | event | topic | message | title | priority | tags | click | attachment | encoding
deriving DecidableEq

namespace MessageField

def key : MessageField → String
  | .id => "id"
  | .time => "time"
  | .event => "event"
  | .topic => "topic"
  | .message => "message"
  | .title => "title"
  | .priority => "priority"
  | .tags => "tags"
  | .click => "click"
  | .attachment => "attachment"
  | .encoding => "encoding"

def Carrier : MessageField → Type
  | .id | .topic | .message | .title | .click | .encoding => String
  | .time => Int64
  | .event => Event
  | .priority => UInt8
  | .tags => List String
  | .attachment => Option Attachment

def read (origin : Origin) : (f : MessageField) → Source → Except Problem f.Carrier
  | .id => readText
  | .time => readInt64
  | .event => Event.read origin
  | .topic => readText
  | .message => readText
  | .title => readText
  | .priority => readUInt8
  | .tags => readTexts
  | .click => readText
  | .attachment => readOptional (Attachment.read origin)
  | .encoding => readText

def blank : (f : MessageField) → f.Carrier
  | .id => ""
  | .time => (0 : Int64)
  | .event => Event.message
  | .topic => ""
  | .message => ""
  | .title => ""
  | .priority => (0 : UInt8)
  | .tags => ([] : List String)
  | .click => ""
  | .attachment => (none : Option Attachment)
  | .encoding => ""

def format : RecordFormat MessageField where
  title := "struct Message"
  fields := [.id, .time, .event, .topic, .message, .title, .priority, .tags, .click, .attachment,
    .encoding]
  key := key
  Carrier := Carrier
  read := read
  required f := f = .id || f = .time || f = .event || f = .topic
  blank := blank

end MessageField

namespace Message

def ofFields (get : (f : MessageField) → f.Carrier) : Message :=
  { id := get .id, time := get .time, event := get .event, topic := get .topic
    body := get .message, title := get .title, priority := get .priority, tags := get .tags
    click := get .click, attachment := get .attachment, encoding := get .encoding }

def read (origin : Origin) (s : Source) : Except Problem Message :=
  (MessageField.format.readRecord origin s).map ofFields

/-- A member for a text, left out when it is empty. -/
def textMember (key s : String) : List (String × Value) :=
  if s = "" then [] else [(key, .text s)]

def toValue (m : Message) : Value :=
  .object (
    [("id", .text m.id), ("time", .integer m.time.toInt), ("event", m.event.toValue),
      ("topic", .text m.topic)] ++
    textMember "message" m.body ++
    textMember "title" m.title ++
    (if m.priority = 0 then [] else [("priority", .integer m.priority.toNat)]) ++
    (if m.tags = [] then [] else [("tags", .texts m.tags)]) ++
    textMember "click" m.click ++
    (match m.attachment with
      | none => []
      | some a => [("attachment", a.toValue)]) ++
    textMember "encoding" m.encoding)

/-- The message as JSON text. -/
def toJson (m : Message) : String := m.toValue.print

/-- The message that a JSON text spells. -/
def ofJson (text : String) : Except Problem Message := (scan text).read (read .document)

end Message

namespace Attachment

/-- The attachment as JSON text. -/
def toJson (a : Attachment) : String := a.toValue.print

/-- The attachment that a JSON text spells. -/
def ofJson (text : String) : Except Problem Attachment := (scan text).read (read .document)

end Attachment

namespace Event

/-- The event as JSON text. -/
def toJson (e : Event) : String := e.toValue.print

/-- The event that a JSON text spells. -/
def ofJson (text : String) : Except Problem Event := (scan text).read (read .document)

end Event

/-! ## Topics -/

namespace Topic

def format : RecordFormat Unit where
  title := "struct Topic"
  fields := [()]
  key _ := "id"
  Carrier _ := String
  read _ _ := readText
  required _ := true
  blank _ := ""

def read (origin : Origin) (s : Source) : Except Problem Topic :=
  (format.readRecord origin s).map fun get => { id := get () }

/-- The topic as JSON text. -/
def toJson (t : Topic) : String := (Value.object [("id", .text t.id)]).print

/-- The topic that a JSON text spells. -/
def ofJson (text : String) : Except Problem Topic := (scan text).read (read .document)

end Topic

end MessageCache
