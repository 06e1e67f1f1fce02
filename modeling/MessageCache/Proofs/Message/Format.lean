/-
# The format of messages

What a message is read from, and what is made of it:

    texts           strings
    numbers         integers in the range of the field, time and expiry signed, size and
                    priority not
    the event       its name, or an object with the name as its only key and null
    the tags        an array of strings
    the attachment  null for none, or what is read as an attachment

An attachment is a record as the message itself is, so both are read from exactly the
objects and arrays of their fields (`messages_readExactly`).
-/
import MessageCache.Proofs.Json.Format
import MessageCache.Proofs.Message.Json

namespace MessageCache

open Json

/-! ## Values of fields -/

section Values

variable {s : Source}

theorem readText_eq_ok {x : String} : readText s = .ok x ↔ s = .text x := by
  cases s <;> simp [readText]

/-- An integer is read as the one number that stands for it, if it is in range. -/
theorem ranged_eq_ok {α : Type} {P : Int → Prop} [DecidablePred P] {f : Int → α} {g : α → Int}
    (hrange : ∀ a, P (g a)) (hread : ∀ n, P n → g (f n) = n) (hback : ∀ a, f (g a) = a)
    {n : Int} {p : Problem} {a : α} :
    (if P n then .ok (f n) else .error p) = Except.ok a ↔ n = g a := by
  split
  · rename_i hn
    rw [Except.ok.injEq]
    constructor
    · rintro rfl
      exact (hread n hn).symm
    · rintro rfl
      exact hback a
  · rename_i hn
    simp only [reduceCtorEq, false_iff]
    rintro rfl
    exact hn (hrange a)

theorem readInt64_eq_ok {n : Int64} : readInt64 s = .ok n ↔ s = .integer n.toInt := by
  cases s with
  | integer m =>
      rw [readInt64, Source.integer.injEq]
      exact ranged_eq_ok inInt64_toInt (fun _ => toInt_ofInt) Int64.ofInt_toInt
  | _ => simp [readInt64]

theorem toNat_ofNat_of_inUInt64 {m : Int} (h : InUInt64 m) :
    ((UInt64.ofNat m.toNat).toNat : Int) = m := by
  obtain ⟨hmin, hmax⟩ := h
  rw [UInt64.toNat_ofNat_of_lt' (by rw [UInt64.size]; omega), Int.toNat_of_nonneg hmin]

theorem readUInt64_eq_ok {n : UInt64} : readUInt64 s = .ok n ↔ s = .integer n.toNat := by
  cases s with
  | integer m =>
      rw [readUInt64, Source.integer.injEq]
      refine ranged_eq_ok inUInt64_toNat (fun _ => toNat_ofNat_of_inUInt64) fun n => ?_
      rw [Int.toNat_natCast, UInt64.ofNat_toNat]
  | _ => simp [readUInt64]

theorem toNat_ofNat_of_inUInt8 {m : Int} (h : InUInt8 m) :
    ((UInt8.ofNat m.toNat).toNat : Int) = m := by
  obtain ⟨hmin, hmax⟩ := h
  rw [UInt8.toNat_ofNat_of_lt' (by rw [UInt8.size]; omega), Int.toNat_of_nonneg hmin]

theorem readUInt8_eq_ok {n : UInt8} : readUInt8 s = .ok n ↔ s = .integer n.toNat := by
  cases s with
  | integer m =>
      rw [readUInt8, Source.integer.injEq]
      refine ranged_eq_ok inUInt8_toNat (fun _ => toNat_ofNat_of_inUInt8) fun n => ?_
      rw [Int.toNat_natCast, UInt8.ofNat_toNat]
  | _ => simp [readUInt8]

theorem readNull_eq_ok {u : Unit} : readNull s = .ok u ↔ s = .null := by
  cases s <;> simp [readNull]

/-- Two readings in a row give a pair of what each gives. -/
theorem exists_of_bind_eq_ok {α β γ : Type} {x : Except Problem α} {y : Except Problem β}
    {f : α → β → γ} {c : γ} :
    (do let a ← x; let b ← y; return f a b) = .ok c ↔ ∃ a b, x = .ok a ∧ y = .ok b ∧ f a b = c := by
  cases x <;> cases y <;> simp [bind, Except.bind, pure, Except.pure]

theorem readItems_readText_eq_ok {items : List Source} {xs : List String} :
    readItems readText items = .ok xs ↔ items = xs.map .text := by
  induction items generalizing xs with
  | nil => cases xs <;> simp [readItems]
  | cons item items ih =>
      rw [readItems, exists_of_bind_eq_ok]
      simp only [readText_eq_ok, ih]
      cases xs with
      | nil => simp
      | cons x xs => simp

theorem readTexts_eq_ok {xs : List String} : readTexts s = .ok xs ↔ s = .array (xs.map .text) := by
  cases s with
  | array items => rw [readTexts, readItems_readText_eq_ok, Source.array.injEq]
  | _ => simp [readTexts]

theorem readOptional_eq_ok {α : Type} {read : Source → Except Problem α}
    (hnull : ∀ a, read .null ≠ .ok a) :
    (readOptional read s = .ok none ↔ s = .null) ∧
      ∀ a, readOptional read s = .ok (some a) ↔ read s = .ok a := by
  by_cases hs : s = .null
  · subst hs
    simp [readOptional, hnull]
  · have hread : readOptional read s = some <$> read s := by
      rw [readOptional]
      exact hs
    rw [hread]
    cases read s with
    | error p => simp [hs]
    | ok b => simp [hs]

theorem Event.ofName?_eq_some {name : String} {e : Event} :
    Event.ofName? name = some e ↔ name = e.name := by
  constructor
  · intro h
    have hname := List.find?_some h
    exact (of_decide_eq_true hname).symm
  · rintro rfl
    exact e.ofName?_name

theorem Event.ofSourceName_eq_ok {e : Event} : Event.ofSourceName s = .ok e ↔ s = .text e.name := by
  cases s with
  | text name =>
      rw [ofSourceName, Source.text.injEq, ← Event.ofName?_eq_some]
      cases Event.ofName? name <;> simp
  | _ => simp [ofSourceName]

theorem Event.read_eq_ok {e : Event} :
    Event.read .document s = .ok e ↔ s = .text e.name ∨ s = .object [(.text e.name, .null)] := by
  cases s with
  | text name =>
      rw [Event.read, Event.ofSourceName_eq_ok]
      simp
  | object members =>
      simp only [reduceCtorEq, Source.object.injEq, false_or]
      match members with
      | [] => simp [Event.read, visited]
      | [(k, v)] =>
          have hread : Event.read .document (.object [(k, v)]) = (do
            let e ← ofSourceName k
            let _ ← readNull v
            return e) := rfl
          rw [hread, exists_of_bind_eq_ok]
          simp only [Event.ofSourceName_eq_ok, readNull_eq_ok, List.cons.injEq, Prod.mk.injEq,
            and_true]
          constructor
          · rintro ⟨_, _, hk, hv, rfl⟩
            exact ⟨hk, hv⟩
          · rintro ⟨hk, hv⟩
            exact ⟨e, (), hk, hv, rfl⟩
      | (k, v) :: m :: rest =>
          -- a second key is a problem, whatever comes before it
          have hread : Event.read .document (.object ((k, v) :: m :: rest)) = (do
            let _ ← ofSourceName k
            let _ ← readNull v
            throw (notOneKey .document)) := rfl
          rw [hread]
          cases ofSourceName k <;> cases readNull v <;> simp [bind, Except.bind]
  | _ => simp [Event.read]

end Values

/-! ## Fields -/

namespace AttachmentField

/-- The value is one of the field, namely this. -/
def Means : (f : AttachmentField) → Source → f.Carrier → Prop
  | .name, s, text | .type, s, text | .url, s, text | .owner, s, text => s = .text text
  | .size, s, n => s = .integer (UInt64.toNat n)
  | .expires, s, n => s = .integer (Int64.toInt n)

/-- What a field of an attachment holds. -/
def valueOf (a : Attachment) : (f : AttachmentField) → f.Carrier
  | .name => a.name
  | .type => a.mimeType
  | .size => a.size
  | .expires => a.expires
  | .url => a.url
  | .owner => a.owner

theorem read_eq_ok (f : AttachmentField) (s : Source) (x : f.Carrier) :
    format.read .document f s = .ok x ↔ f.Means s x := by
  cases f with
  | name | type | url | owner => exact readText_eq_ok
  | size => exact readUInt64_eq_ok
  | expires => exact readInt64_eq_ok

theorem ofFields_eq_iff (get : (f : AttachmentField) → f.Carrier) (a : Attachment) :
    Attachment.ofFields get = a ↔ get = valueOf a := by
  constructor
  · rintro rfl
    funext f
    cases f <;> rfl
  · rintro rfl
    rfl

theorem readExactly : format.ReadExactly Means valueOf (Attachment.read .document) :=
  isKeyed.readExactly read_eq_ok ofFields_eq_iff fun _ => rfl

end AttachmentField

namespace MessageField

/-- The value is one of the field, namely this. -/
def Means : (f : MessageField) → Source → f.Carrier → Prop
  | .id, s, text | .topic, s, text | .message, s, text | .title, s, text | .click, s, text
  | .encoding, s, text => s = .text text
  | .time, s, n => s = .integer (Int64.toInt n)
  | .event, s, e => s = .text (Event.name e) ∨ s = .object [(.text (Event.name e), .null)]
  | .priority, s, n => s = .integer (UInt8.toNat n)
  | .tags, s, texts => s = .array (List.map .text texts)
  | .attachment, s, none => s = .null
  | .attachment, s, some a => Attachment.read .document s = .ok a

theorem read_eq_ok (f : MessageField) (s : Source) (x : f.Carrier) :
    format.read .document f s = .ok x ↔ f.Means s x := by
  cases f with
  | id | topic | message | title | click | encoding => exact readText_eq_ok
  | time => exact readInt64_eq_ok
  | event => exact Event.read_eq_ok
  | priority => exact readUInt8_eq_ok
  | tags => exact readTexts_eq_ok
  | attachment =>
      have hnull : ∀ a, Attachment.read .document .null ≠ .ok a := by
        intro a h
        cases h
      cases x with
      | none => exact (readOptional_eq_ok hnull).1
      | some a => exact (readOptional_eq_ok hnull).2 a

theorem ofFields_eq_iff (get : (f : MessageField) → f.Carrier) (m : Message) :
    Message.ofFields get = m ↔ get = held m := by
  constructor
  · rintro rfl
    funext f
    cases f <;> rfl
  · rintro rfl
    rfl

theorem readExactly : format.ReadExactly Means held (Message.read .document) :=
  isKeyed.readExactly read_eq_ok ofFields_eq_iff fun _ => rfl

end MessageField

/-- Messages are read from exactly the objects and arrays of these fields, of which the first
four are required, and so are attachments. -/
theorem messages_readExactly :
    (MessageField.format.fields.map MessageField.format.key = ["id", "time", "event", "topic",
        "message", "title", "priority", "tags", "click", "attachment", "encoding"] ∧
      (∀ f, MessageField.format.required f = true ↔
        MessageField.format.key f ∈ ["id", "time", "event", "topic"]) ∧
      MessageField.format.ReadExactly MessageField.Means MessageField.held
        (Message.read .document)) ∧
    AttachmentField.format.fields.map AttachmentField.format.key =
        ["name", "type", "size", "expires", "url", "owner"] ∧
      (∀ f, AttachmentField.format.required f = true ↔
        AttachmentField.format.key f ∈ ["name", "url"]) ∧
      AttachmentField.format.ReadExactly AttachmentField.Means AttachmentField.valueOf
        (Attachment.read .document) := by
  refine ⟨⟨rfl, fun f => ?_, MessageField.readExactly⟩, rfl, fun f => ?_,
    AttachmentField.readExactly⟩
  · cases f <;> decide
  · cases f <;> decide

/-- The members may come in any order, and others between them. -/
example : Message.read .document (.named [("topic", .text "t"), ("extra", .null),
    ("event", .text "message"), ("time", .integer 5), ("id", .text "a")]) =
      .ok { id := "a", time := 5, event := .message, topic := "t", body := "", title := ""
            priority := 0, tags := [], click := "", attachment := none, encoding := "" } := rfl

end MessageCache
