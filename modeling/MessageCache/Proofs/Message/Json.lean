/-
# Messages come back from their JSON text

A message that is written as JSON is read as it was, but for the owner of its attachment,
which is never written and is read as the empty text:

    ofJson m.toJson               =  m.withoutOwner
    (m.withoutOwner).toJson       =  m.toJson

and so for an attachment alone (`ofJson_toJson`).  A field that is left out holds what the
reader fills in for it: both say for each field what its default is, and they have to say
the same (`MessageField.spells`, `AttachmentField.spells`).
-/
import MessageCache.Message.Json
import MessageCache.Proofs.Json.Record

namespace MessageCache

open Json

/-! ## Values of fields -/

theorem readInt64_toInt (n : Int64) : readInt64 (.ofValue (.integer n.toInt)) = .ok n := by
  rw [Source.ofValue, readInt64, if_pos (inInt64_toInt n), Int64.ofInt_toInt]

theorem inUInt64_toNat (n : UInt64) : InUInt64 n.toNat := by
  have hlt := n.toNat_lt
  exact ⟨by omega, by omega⟩

theorem readUInt64_toNat (n : UInt64) : readUInt64 (.ofValue (.integer n.toNat)) = .ok n := by
  rw [Source.ofValue, readUInt64, if_pos (inUInt64_toNat n), Int.toNat_natCast, UInt64.ofNat_toNat]

theorem inUInt8_toNat (n : UInt8) : InUInt8 n.toNat := by
  have hlt := n.toNat_lt
  exact ⟨by omega, by omega⟩

theorem InUInt8.inUInt64 {n : Int} (h : InUInt8 n) : InUInt64 n := by
  obtain ⟨hl, hu⟩ := h
  exact ⟨hl, by omega⟩

theorem readUInt8_toNat (n : UInt8) : readUInt8 (.ofValue (.integer n.toNat)) = .ok n := by
  rw [Source.ofValue, readUInt8, if_pos (inUInt8_toNat n), Int.toNat_natCast, UInt8.ofNat_toNat]

theorem Event.read_toValue (e : Event) : Event.read .document (.ofValue e.toValue) = .ok e := by
  show ofSourceName (.text e.name) = .ok e
  rw [ofSourceName, Event.ofName?_name]

theorem readTexts_texts (texts : List String) : readTexts (.ofValue (.texts texts)) = .ok texts := by
  have hitems : readItems readText (Source.ofItems (texts.map .text)) = .ok texts := by
    induction texts with
    | nil => rfl
    | cons s texts ih =>
        rw [List.map_cons, Source.ofItems, readItems, Source.ofValue, ih]
        rfl
  rw [Value.texts, Source.ofValue, readTexts, hitems]

theorem inRange_texts (texts : List String) : (Value.texts texts).InRange := by
  rw [Value.texts, Value.InRange, itemsInRange_iff]
  intro v hv
  obtain ⟨s, -, rfl⟩ := List.mem_map.mp hv
  trivial

/-! ## Attachments -/

namespace AttachmentField

/-- What is written for a field of an attachment. -/
def spelled (a : Attachment) : AttachmentField → Option Value
  | .name => some (.text a.name)
  | .type => if a.mimeType = "" then none else some (.text a.mimeType)
  | .size => some (.integer a.size.toNat)
  | .expires => if a.expires = 0 then none else some (.integer a.expires.toInt)
  | .url => some (.text a.url)
  | .owner => none

/-- What a field of an attachment holds when its owner is not told. -/
def held (a : Attachment) : (f : AttachmentField) → f.Carrier
  | .name => a.name
  | .type => a.mimeType
  | .size => a.size
  | .expires => a.expires
  | .url => a.url
  | .owner => ""

theorem isKeyed : format.IsKeyed where
  all f := by cases f <;> decide
  nodup := by decide
  keys f := by cases f <;> rfl

theorem spells (a : Attachment) : format.Spells (spelled a) (held a) := by
  intro f
  cases f with
  | name => exact .written _ trivial rfl
  | type =>
      rw [spelled]
      split
      · rename_i h
        exact .leftOut rfl h
      · exact .written _ trivial rfl
  | size =>
      have hread : format.read .document .size = readUInt64 := rfl
      refine .written _ (.inr (inUInt64_toNat a.size)) ?_
      rw [hread]
      exact readUInt64_toNat a.size
  | expires =>
      rw [spelled]
      split
      · rename_i h
        exact .leftOut rfl h
      · exact .written _ (.inl (inInt64_toInt a.expires)) (readInt64_toInt a.expires)
  | url => exact .written _ trivial rfl
  | owner => exact .leftOut rfl rfl

/-- The members that an attachment is written with, field by field. -/
theorem toValue_eq (a : Attachment) :
    a.toValue = .object (format.spell (spelled a) format.fields) := by
  by_cases htype : a.mimeType = "" <;> by_cases hexpires : a.expires = 0 <;>
    simp [Attachment.toValue, RecordFormat.spell, format, spelled, key, htype, hexpires]

end AttachmentField

/-- The attachment as subscribers see it. -/
def Attachment.withoutOwner (a : Attachment) : Attachment := { a with owner := "" }

theorem Attachment.inRange_toValue (a : Attachment) : a.toValue.InRange := by
  rw [AttachmentField.toValue_eq, Value.InRange]
  exact (AttachmentField.spells a).membersInRange _

theorem Attachment.read_toValue (a : Attachment) :
    Attachment.read .document (.ofValue a.toValue) = .ok a.withoutOwner := by
  rw [Attachment.read, AttachmentField.toValue_eq,
    (AttachmentField.spells a).readRecord AttachmentField.isKeyed]
  rfl

theorem Attachment.readOptional_toValue (a : Attachment) :
    readOptional (Attachment.read .document) (.ofValue a.toValue) = .ok (some a.withoutOwner) := by
  have hread := a.read_toValue
  rw [AttachmentField.toValue_eq, Source.ofValue] at hread ⊢
  rw [readOptional, hread]
  · rfl
  · intro h
    cases h

/-! ## Messages -/

namespace MessageField

/-- A text that is left out where it is empty. -/
def spelledText (s : String) : Option Value := if s = "" then none else some (.text s)

/-- What is written for a field of a message. -/
def spelled (m : Message) : MessageField → Option Value
  | .id => some (.text m.id)
  | .time => some (.integer m.time.toInt)
  | .event => some m.event.toValue
  | .topic => some (.text m.topic)
  | .message => spelledText m.body
  | .title => spelledText m.title
  | .priority => if m.priority = 0 then none else some (.integer m.priority.toNat)
  | .tags => if m.tags = [] then none else some (.texts m.tags)
  | .click => spelledText m.click
  | .attachment => m.attachment.map Attachment.toValue
  | .encoding => spelledText m.encoding

/-- What a field of a message holds. -/
def held (m : Message) : (f : MessageField) → f.Carrier
  | .id => m.id
  | .time => m.time
  | .event => m.event
  | .topic => m.topic
  | .message => m.body
  | .title => m.title
  | .priority => m.priority
  | .tags => m.tags
  | .click => m.click
  | .attachment => m.attachment
  | .encoding => m.encoding

theorem isKeyed : format.IsKeyed where
  all f := by cases f <;> decide
  nodup := by decide
  keys f := by cases f <;> rfl

theorem spelledAs_text {f : MessageField} {s : String} {x : format.Carrier f}
    (hread : format.read .document f (.text s) = .ok x) (hrequired : format.required f = false)
    (hblank : s = "" → x = format.blank f) : format.SpelledAs f x (spelledText s) := by
  rw [spelledText]
  split
  · rename_i h
    exact .leftOut hrequired (hblank h)
  · exact .written _ trivial hread

theorem spells (m : Message) : format.Spells (spelled m) (held m.withoutOwner) := by
  intro f
  cases f with
  | id => exact .written _ trivial rfl
  | time => exact .written _ (.inl (inInt64_toInt m.time)) (readInt64_toInt m.time)
  | event => exact .written _ trivial (Event.read_toValue m.event)
  | topic => exact .written _ trivial rfl
  | message => exact spelledAs_text rfl rfl fun h => h
  | title => exact spelledAs_text rfl rfl fun h => h
  | priority =>
      have hread : format.read .document .priority = readUInt8 := rfl
      rw [spelled]
      split
      · rename_i h
        exact .leftOut rfl h
      · refine .written _ (.inr (inUInt8_toNat m.priority).inUInt64) ?_
        rw [hread]
        exact readUInt8_toNat m.priority
  | tags =>
      rw [spelled]
      split
      · rename_i h
        exact .leftOut rfl h
      · exact .written _ (inRange_texts m.tags) (readTexts_texts m.tags)
  | click => exact spelledAs_text rfl rfl fun h => h
  | attachment =>
      rw [spelled, held, Message.withoutOwner]
      cases m.attachment with
      | none => exact .leftOut rfl rfl
      | some a =>
          refine .written _ a.inRange_toValue ?_
          have hread : format.read .document .attachment =
              readOptional (Attachment.read .document) := rfl
          rw [hread, a.readOptional_toValue]
          rfl
  | encoding => exact spelledAs_text rfl rfl fun h => h

/-- The members that a message is written with, field by field. -/
theorem toValue_eq (m : Message) :
    m.toValue = .object (format.spell (spelled m) format.fields) := by
  have htext (k s : String) : ((spelledText s).toList.map fun v => (k, v)) =
      Message.textMember k s := by
    rw [spelledText, Message.textMember]
    split <;> rfl
  have hpriority : ((if m.priority = 0 then none
      else some (Value.integer m.priority.toNat)).toList.map fun v => ("priority", v)) =
      if m.priority = 0 then [] else [("priority", .integer m.priority.toNat)] := by
    split <;> rfl
  have htags : ((if m.tags = [] then none else some (Value.texts m.tags)).toList.map
      fun v => ("tags", v)) = if m.tags = [] then [] else [("tags", .texts m.tags)] := by
    split <;> rfl
  simp only [Message.toValue, RecordFormat.spell, format, List.flatMap_cons, List.flatMap_nil,
    spelled, key, htext, hpriority, htags]
  simp only [Option.toList_some, List.map_cons, List.map_nil, List.append_assoc, List.cons_append,
    List.nil_append, List.append_nil]
  cases m.attachment with
  | none => rfl
  | some a => rfl

end MessageField

theorem Message.inRange_toValue (m : Message) : m.toValue.InRange := by
  rw [MessageField.toValue_eq, Value.InRange]
  exact (MessageField.spells m).membersInRange _

theorem Message.read_toValue (m : Message) :
    Message.read .document (.ofValue m.toValue) = .ok m.withoutOwner := by
  rw [Message.read, MessageField.toValue_eq,
    (MessageField.spells m).readRecord MessageField.isKeyed]
  rfl

/-- The owner of an attachment is not written. -/
theorem Message.toValue_withoutOwner (m : Message) : m.withoutOwner.toValue = m.toValue := by
  obtain ⟨id, time, event, topic, body, title, priority, tags, click, attachment, encoding⟩ := m
  cases attachment <;> rfl

/-! ## The round trip -/

/-- A text that was written for a value is read as that value. -/
theorem read_scan_print {α : Type} {read : Source → Except Problem α} {v : Value} {a : α}
    (hrange : v.InRange) (hread : read (.ofValue v) = .ok a) :
    (scan v.print).read read = .ok a := by
  rw [scan_print hrange, Document.read, hread]
  rfl

/-- Messages and attachments are read as they were written, without an owner, and written
the same again. -/
theorem ofJson_toJson (m : Message) (a : Attachment) :
    (Message.ofJson m.toJson = .ok m.withoutOwner ∧ m.withoutOwner.toJson = m.toJson) ∧
      Attachment.ofJson a.toJson = .ok a.withoutOwner ∧ a.withoutOwner.toJson = a.toJson := by
  refine ⟨⟨read_scan_print m.inRange_toValue m.read_toValue, ?_⟩,
    read_scan_print a.inRange_toValue a.read_toValue, rfl⟩
  rw [Message.toJson, m.toValue_withoutOwner]
  rfl

end MessageCache
