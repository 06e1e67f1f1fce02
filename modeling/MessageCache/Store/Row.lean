/-
# Stored rows — a message as the cells of one row

Tags are stored as one text.  The attachment is spread over columns of its own,
with a flag that says whether there is one; where there is none, the other
columns hold empty texts and zeros.
-/
import MessageCache.Message.Delivery
import MessageCache.Message.Tags
import MessageCache.Store.Error
import MessageCache.Table.Query

namespace MessageCache

/-- The name of the table of messages. -/
def messagesTable : String := "messages"

/-! ## Writing -/

/-- The cells of an attachment, or of its absence. -/
def attachmentCells : Option Attachment → Except StoreError (List (String × Cell))
  | none =>
    .ok [("attachment_present", .ofBool false), ("attachment_name", .ofString ""),
      ("attachment_type", .ofString ""), ("attachment_size", .integer 0),
      ("attachment_expires", .integer 0), ("attachment_url", .ofString ""),
      ("attachment_owner", .ofString "")]
  | some a =>
    if InInt64 a.size.toNat then
      .ok [("attachment_present", .ofBool true), ("attachment_name", .ofString a.name),
        ("attachment_type", .ofString a.mimeType),
        ("attachment_size", .integer (Int64.ofNat a.size.toNat)),
        ("attachment_expires", .integer a.expires), ("attachment_url", .ofString a.url),
        ("attachment_owner", .ofString a.owner)]
    else .error (.invalidMessage (.attachmentSize a.size))

/-- The cells of a message in a delivery state. -/
def messageCells (m : Message) (state : DeliveryState) :
    Except StoreError (List (String × Cell)) := do
  let tags ← (Tags.encode m.tags).mapError .invalidTag
  let attachment ← attachmentCells m.attachment
  return [("id", .ofString m.id), ("time", .integer m.time), ("topic", .ofString m.topic),
      ("message", .ofString m.body), ("title", .ofString m.title),
      ("priority", .integer (Int64.ofNat m.priority.toNat)), ("tags", .ofString tags),
      ("click", .ofString m.click)] ++
    attachment ++
    [("encoding", .ofString m.encoding), ("published", .ofBool state.isPublished)]

/-! ## Reading -/

namespace ResultRow

/-- The cell at an index, with its column's name. -/
def cell (row : ResultRow) (index : Nat) : String × Cell := row.getD index ("", .null)

/-- The integer at an index. -/
def integer (row : ResultRow) (index : Nat) : Except ReadFault Int64 :=
  match cell row index with
  | (_, .integer n) => .ok n
  | (column, c) => .error (.wrongClass c.storageClass index column)

/-- The text at an index. -/
def text (row : ResultRow) (index : Nat) : Except ReadFault String :=
  match cell row index with
  | (_, .text b) => (Utf8.read b).mapError (.notUtf8 index)
  | (column, c) => .error (.wrongClass c.storageClass index column)

/-- The flag at an index: any integer but zero. -/
def flag (row : ResultRow) (index : Nat) : Except ReadFault Bool :=
  (integer row index).map (· ≠ 0)

/-- The integer at an index as a byte. -/
def byte (row : ResultRow) (index : Nat) : Except ReadFault UInt8 := do
  let n ← integer row index
  if n < 0 then throw (.tooSmall index)
  else if 255 < n then throw (.tooLarge index)
  else return UInt8.ofNat n.toInt.toNat

/-- An integer from an index as a size. -/
def size (n : Int64) (index : Nat) : Except ReadFault UInt64 :=
  if n < 0 then .error (.tooSmall index) else .ok (UInt64.ofNat n.toInt.toNat)

end ResultRow

/-- The columns that make up a message, in the order in which they are asked for. -/
def messageColumns : List String :=
  ["id", "time", "topic", "message", "title", "priority", "tags", "click", "attachment_present",
    "attachment_name", "attachment_type", "attachment_size", "attachment_expires",
    "attachment_url", "attachment_owner", "encoding"]

/-- The attachment of a row of `messageColumns`.  Its columns are read whether
or not there is one; only the sign of the size is left alone if there is none. -/
def readAttachment (row : ResultRow) : Except ReadFault (Option Attachment) := do
  let present ← ResultRow.flag row 8
  let name ← ResultRow.text row 9
  let mimeType ← ResultRow.text row 10
  let stored ← ResultRow.integer row 11
  let expires ← ResultRow.integer row 12
  let url ← ResultRow.text row 13
  let owner ← ResultRow.text row 14
  if present then
    let size ← ResultRow.size stored 11
    return some { name, mimeType, size, expires, url, owner }
  else return none

/-- The message of a row of `messageColumns`. -/
def readMessage (row : ResultRow) : Except ReadFault Message := do
  let priority ← ResultRow.byte row 5
  let tags ← ResultRow.text row 6
  let attachment ← readAttachment row
  let id ← ResultRow.text row 0
  let time ← ResultRow.integer row 1
  let topic ← ResultRow.text row 2
  let body ← ResultRow.text row 3
  let title ← ResultRow.text row 4
  let click ← ResultRow.text row 7
  let encoding ← ResultRow.text row 15
  return { id, time, event := .message, topic, body, title, priority, tags := Tags.decode tags
           click, attachment, encoding }

end MessageCache
