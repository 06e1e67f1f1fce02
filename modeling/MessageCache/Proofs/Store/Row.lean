/-
# Rows that hold an entry

`r.Holds e`: the cells of the row are those of the message and of its state.  Where the
message has no attachment, the columns of one hold any texts and numbers, a negative size
among them; an upgrade leaves such rows behind.

A table `IsCurrent` if its columns are those of the current layout in any order, whatever
they begin with and whether or not they may be null.  In such a table

    what is read of a row is the message that it holds         (`Row.Holds.readMessage`)
    the row that is made of a message holds it                 (`Row.Holds.nextRow`)
    no column refuses such a row                               (`Row.Holds.nullColumn?`)
-/
import MessageCache.Proofs.Message.Tags
import MessageCache.Proofs.Store.Contents
import MessageCache.Proofs.Table.Query

namespace MessageCache

/-! ## Reading cells of a result -/

namespace ResultRow

variable {row : ResultRow} {i : Nat}

theorem integer_eq {n : Int64} (h : (cell row i).2 = .integer n) : integer row i = .ok n := by
  unfold integer
  cases hcell : cell row i with
  | mk name c =>
      rw [hcell] at h
      simp only at h
      subst h
      rfl

theorem text_eq {s : String} (h : (cell row i).2 = .ofString s) : text row i = .ok s := by
  unfold text
  cases hcell : cell row i with
  | mk name c =>
      rw [hcell] at h
      simp only [Cell.ofString] at h
      subst h
      simp only [Utf8.read_bytes]
      rfl

theorem flag_eq {b : Bool} (h : (cell row i).2 = .ofBool b) : flag row i = .ok b := by
  unfold flag
  rw [integer_eq h]
  cases b <;> rfl

theorem byte_eq {p : UInt8} (h : (cell row i).2 = .integer (Int64.ofNat p.toNat)) :
    byte row i = .ok p := by
  have hp := p.toNat_lt
  have hn : (Int64.ofNat p.toNat).toInt = p.toNat := toInt_ofNat ⟨by omega, by omega⟩
  have hsmall : ¬ Int64.ofNat p.toNat < 0 := by
    rw [Int64.lt_iff_toInt_lt, hn]
    simp
  have hlarge : ¬ (255 : Int64) < Int64.ofNat p.toNat := by
    have h255 : (255 : Int64).toInt = 255 := rfl
    rw [Int64.lt_iff_toInt_lt, hn, h255]
    omega
  unfold byte
  rw [integer_eq h, ok_bind, if_neg hsmall, if_neg hlarge, hn]
  show Except.ok _ = _
  rw [Int.toNat_natCast, UInt8.ofNat_toNat]

theorem size_eq {s : UInt64} (hs : InInt64 s.toNat) :
    size (Int64.ofNat s.toNat) i = .ok s := by
  have hn : (Int64.ofNat s.toNat).toInt = s.toNat := toInt_ofNat hs
  have hsmall : ¬ Int64.ofNat s.toNat < 0 := by
    rw [Int64.lt_iff_toInt_lt, hn]
    simp
  unfold size
  rw [if_neg hsmall, hn, Int.toNat_natCast, UInt64.ofNat_toNat]

end ResultRow

/-! ## Tables in the current layout -/

namespace Layout

/-- The name of a text column, as it is written in the layout. -/
def IsText (name : String) : Prop :=
  nameKey name = name ∧ name ∈ releasedNames currentVersion ∧ name ∉ integerColumns

/-- The name of a column of numbers, as it is written in the layout. -/
def IsInteger (name : String) : Prop :=
  nameKey name = name ∧ name ∈ releasedNames currentVersion ∧ name ∈ integerColumns

instance (name : String) : Decidable (IsText name) := by
  unfold IsText
  infer_instance

instance (name : String) : Decidable (IsInteger name) := by
  unfold IsInteger
  infer_instance

/-- The affinity of a column by its key. -/
def affinity (key : String) : Affinity := if key ∈ integerColumns then .integer else .text

end Layout

/-- What of a column matters to the store: not whether it may be null, nor what it begins
with. -/
def Column.shape (c : Column) : String × Affinity × Bool := (c.key, c.affinity, c.isKey)

/-- The columns are those of the current layout. -/
def Table.IsCurrent (t : Table) : Prop :=
  (t.columns.map Column.shape).Perm (Layout.current.map Column.shape)

namespace Table.IsCurrent

variable {t : Table} {c : Column} {name : String} {r : Row}

theorem shape_of_mem (ht : t.IsCurrent) (hc : c ∈ t.columns) :
    c.key ∈ Layout.releasedNames Layout.currentVersion ∧ c.affinity = Layout.affinity c.key ∧
      c.isKey = decide (c.key = "id") := by
  have hall : ∀ x ∈ Layout.current.map Column.shape,
      x.1 ∈ Layout.releasedNames Layout.currentVersion ∧ x.2.1 = Layout.affinity x.1 ∧
        x.2.2 = decide (x.1 = "id") := by decide
  exact hall c.shape (ht.mem_iff.mp (List.mem_map_of_mem hc))

theorem exists_column? (ht : t.IsCurrent)
    (hname : nameKey name ∈ Layout.releasedNames Layout.currentVersion) :
    ∃ c, t.column? name = some c ∧ c.key = nameKey name ∧
      c.affinity = Layout.affinity (nameKey name) ∧ c.isKey = decide (nameKey name = "id") := by
  have hkeys : (t.columns.map Column.key).Perm (Layout.current.map Column.key) := by
    have h := ht.map Prod.fst
    rwa [List.map_map, List.map_map] at h
  have hcurrent : ∀ key ∈ Layout.releasedNames Layout.currentVersion,
      key ∈ Layout.current.map Column.key := by decide
  obtain ⟨c, hc⟩ := Option.isSome_iff_exists.mp
    (Table.isSome_column?.mpr (hkeys.mem_iff.mpr (hcurrent _ hname)))
  have hkey := Table.key_of_column? hc
  obtain ⟨-, haffinity, hisKey⟩ := ht.shape_of_mem (Table.mem_of_column? hc)
  rw [hkey] at haffinity hisKey
  exact ⟨c, hc, hkey, haffinity, hisKey⟩

theorem missing?_eq_none (ht : t.IsCurrent) {names : List String}
    (hnames : ∀ n ∈ names, nameKey n ∈ Layout.releasedNames Layout.currentVersion) :
    t.missing? names = none := by
  have hids : ∀ key ∈ Layout.releasedNames Layout.currentVersion, key ∉ Table.idNames := by decide
  rw [Table.missing?_eq_none fun n hn => hids _ (hnames n hn)]
  intro n hn
  obtain ⟨c, hc, -⟩ := ht.exists_column? (hnames n hn)
  exact Table.isSome_column?.mp (by rw [hc]; rfl)

theorem value_eq (ht : t.IsCurrent)
    (hname : nameKey name ∈ Layout.releasedNames Layout.currentVersion) :
    t.value r name = r.cell (nameKey name) := by
  obtain ⟨c, hc, -⟩ := ht.exists_column? hname
  simp [Table.value, Table.namesId, hc]

/-- The key of messages is their id. -/
theorem exists_keyColumn? (ht : t.IsCurrent) : ∃ c, t.keyColumn? = some c ∧ c.key = "id" := by
  cases hc : t.keyColumn? with
  | none =>
      have hname : nameKey "id" ∈ Layout.releasedNames Layout.currentVersion := by decide
      obtain ⟨c, hid, -, -, hisKey⟩ := ht.exists_column? hname
      have hnone := List.find?_eq_none.mp hc c (Table.mem_of_column? hid)
      exact absurd hisKey hnone
  | some c =>
      have hisKey : c.isKey = true := List.find?_some hc
      have hshape := (ht.shape_of_mem (List.mem_of_find?_eq_some hc)).2.2
      rw [hisKey] at hshape
      exact ⟨c, rfl, of_decide_eq_true hshape.symm⟩

/-- A comparison of a text column with a text. -/
theorem holds_text (ht : t.IsCurrent) (hname : Layout.IsText name) (op : Comparison) (s : String) :
    (Condition.compare name op (.ofString s)).holds t r =
      op.holds (r.cell name) (.ofString s) := by
  obtain ⟨hkey, hmem, htext⟩ := hname
  obtain ⟨c, hc, hckey, haffinity, -⟩ := ht.exists_column? (by rw [hkey]; exact hmem)
  simp only [Condition.holds, hc, hckey, haffinity, hkey, Layout.affinity, if_neg htext]
  rfl

/-- A comparison of a column of numbers with a number. -/
theorem holds_integer (ht : t.IsCurrent) (hname : Layout.IsInteger name) (op : Comparison)
    (n : Int64) :
    (Condition.compare name op (.integer n)).holds t r =
      op.holds (r.cell name) (.integer n) := by
  obtain ⟨hkey, hmem, hinteger⟩ := hname
  obtain ⟨c, hc, hckey, haffinity, -⟩ := ht.exists_column? (by rw [hkey]; exact hmem)
  simp only [Condition.holds, hc, hckey, haffinity, hkey, Layout.affinity, if_pos hinteger]
  rfl

/-- What a result has at an index. -/
theorem cell_project (ht : t.IsCurrent) (columns : List String) {i : Nat}
    (hi : columns[i]? = some name)
    (hname : nameKey name ∈ Layout.releasedNames Layout.currentVersion) :
    (ResultRow.cell (Database.project t columns r) i).2 = r.cell (nameKey name) := by
  obtain ⟨c, hc, hkey, -⟩ := ht.exists_column? hname
  unfold ResultRow.cell Database.project
  rw [List.getD_eq_getElem?_getD, List.getElem?_map, hi]
  simp [hc, hkey]

end Table.IsCurrent

/-! ## Rows that hold an entry -/

/-- The cells of an attachment, apart from the flag for it, with the size as it is stored. -/
structure Row.HoldsAttachment (r : Row) (a : Attachment) (size : Int64) : Prop where
  name : r.cell "attachment_name" = .ofString a.name
  mimeType : r.cell "attachment_type" = .ofString a.mimeType
  size : r.cell "attachment_size" = .integer size
  expires : r.cell "attachment_expires" = .integer a.expires
  url : r.cell "attachment_url" = .ofString a.url
  owner : r.cell "attachment_owner" = .ofString a.owner

/-- The stored size is that of the attachment. -/
structure Attachment.IsStored (a : Attachment) (size : Int64) : Prop where
  inRange : InInt64 a.size.toNat
  eq : size = Int64.ofNat a.size.toNat

structure Row.Holds (r : Row) (e : Entry) : Prop where
  rowId : r.id = e.rowId
  event : e.message.event = .message
  id : r.cell "id" = .ofString e.message.id
  time : r.cell "time" = .integer e.message.time
  topic : r.cell "topic" = .ofString e.message.topic
  body : r.cell "message" = .ofString e.message.body
  title : r.cell "title" = .ofString e.message.title
  priority : r.cell "priority" = .integer (Int64.ofNat e.message.priority.toNat)
  tags : ∃ stored, r.cell "tags" = .ofString stored ∧ Tags.decode stored = e.message.tags
  click : r.cell "click" = .ofString e.message.click
  encoding : r.cell "encoding" = .ofString e.message.encoding
  published : r.cell "published" = .ofBool e.state.isPublished
  present : r.cell "attachment_present" = .ofBool e.message.attachment.isSome
  /-- The attachment of the message, or whatever is left of one. -/
  attachment : ∃ a size, r.HoldsAttachment a size ∧
    ∀ b ∈ e.message.attachment, b = a ∧ a.IsStored size

namespace Row.Holds

variable {t : Table} {r : Row} {e : Entry}

/-- What is left of an attachment is not read. -/
theorem attachment_eq (h : r.Holds e) :
    ∃ a size, r.HoldsAttachment a size ∧
      (e.message.attachment = if e.message.attachment.isSome then some a else none) ∧
      (e.message.attachment.isSome → a.IsStored size) := by
  obtain ⟨a, size, ha, hall⟩ := h.attachment
  refine ⟨a, size, ha, ?_⟩
  cases hattachment : e.message.attachment with
  | none => exact ⟨rfl, fun h => nomatch h⟩
  | some b =>
      obtain ⟨rfl, hsize⟩ := hall b hattachment
      exact ⟨rfl, fun _ => hsize⟩

/-- The columns that are asked for make up the message again. -/
theorem readMessage (ht : t.IsCurrent) (h : r.Holds e) :
    MessageCache.readMessage (Database.project t messageColumns r) = .ok e.message := by
  obtain ⟨stored, htags, hdecode⟩ := h.tags
  obtain ⟨a, size, ha, hattachment, hsize⟩ := h.attachment_eq
  have hcell {i : Nat} {name : String} (hi : messageColumns[i]? = some name)
      (hname : nameKey name ∈ Layout.releasedNames Layout.currentVersion) :=
    ht.cell_project (r := r) messageColumns hi hname
  have hread : readAttachment (Database.project t messageColumns r) = .ok e.message.attachment := by
    unfold readAttachment
    rw [ResultRow.flag_eq ((hcell (i := 8) rfl (by decide)).trans h.present),
      ResultRow.text_eq ((hcell (i := 9) rfl (by decide)).trans ha.name),
      ResultRow.text_eq ((hcell (i := 10) rfl (by decide)).trans ha.mimeType),
      ResultRow.integer_eq ((hcell (i := 11) rfl (by decide)).trans ha.size),
      ResultRow.integer_eq ((hcell (i := 12) rfl (by decide)).trans ha.expires),
      ResultRow.text_eq ((hcell (i := 13) rfl (by decide)).trans ha.url),
      ResultRow.text_eq ((hcell (i := 14) rfl (by decide)).trans ha.owner),
      hattachment]
    simp only [ok_bind]
    cases hsome : e.message.attachment with
    | none => rfl
    | some b =>
        rw [hsome] at hsize
        obtain ⟨hrange, rfl⟩ := hsize rfl
        simp only [Option.isSome_some, if_true, ResultRow.size_eq hrange, ok_bind]
        rfl
  unfold MessageCache.readMessage
  rw [ResultRow.byte_eq ((hcell (i := 5) rfl (by decide)).trans h.priority),
    ResultRow.text_eq ((hcell (i := 6) rfl (by decide)).trans htags), hread,
    ResultRow.text_eq ((hcell (i := 0) rfl (by decide)).trans h.id),
    ResultRow.integer_eq ((hcell (i := 1) rfl (by decide)).trans h.time),
    ResultRow.text_eq ((hcell (i := 2) rfl (by decide)).trans h.topic),
    ResultRow.text_eq ((hcell (i := 3) rfl (by decide)).trans h.body),
    ResultRow.text_eq ((hcell (i := 4) rfl (by decide)).trans h.title),
    ResultRow.text_eq ((hcell (i := 7) rfl (by decide)).trans h.click),
    ResultRow.text_eq ((hcell (i := 15) rfl (by decide)).trans h.encoding)]
  simp only [ok_bind, hdecode, ← h.event]
  rfl

/-- No cell of such a row is null. -/
theorem cell_ne_null (h : r.Holds e) {key : String}
    (hkey : key ∈ Layout.releasedNames Layout.currentVersion) : r.cell key ≠ .null := by
  obtain ⟨stored, htags, -⟩ := h.tags
  obtain ⟨a, size, ha, -⟩ := h.attachment
  have hall : ∀ key ∈ Layout.releasedNames Layout.currentVersion,
      (∃ s, r.cell key = .ofString s) ∨ ∃ n, r.cell key = .integer n := by
    simp only [Layout.currentVersion, Layout.releasedNames, Layout.added, List.forall_mem_append,
      List.forall_mem_cons, List.not_mem_nil, false_implies, implies_true, and_true, and_assoc]
    exact ⟨.inl ⟨_, h.id⟩, .inr ⟨_, h.time⟩, .inl ⟨_, h.topic⟩, .inl ⟨_, h.body⟩,
      .inl ⟨_, h.title⟩, .inr ⟨_, h.priority⟩, .inl ⟨_, htags⟩, .inr ⟨_, h.published⟩,
      .inl ⟨_, h.click⟩, .inl ⟨_, ha.name⟩, .inl ⟨_, ha.mimeType⟩, .inr ⟨_, ha.size⟩,
      .inr ⟨_, ha.expires⟩, .inl ⟨_, ha.url⟩, .inl ⟨_, ha.owner⟩, .inl ⟨_, h.encoding⟩,
      .inr ⟨_, h.present⟩⟩
  rcases hall key hkey with ⟨s, hs⟩ | ⟨n, hn⟩
  · rw [hs]
    exact Cell.ofString_ne_null s
  · rw [hn]
    exact Cell.integer_ne_null n

/-- No column refuses such a row. -/
theorem nullColumn? (ht : t.IsCurrent) (h : r.Holds e) : Database.nullColumn? t r = none := by
  rw [Database.nullColumn?, List.find?_eq_none]
  intro c hc
  have hne := h.cell_ne_null (ht.shape_of_mem hc).1
  simp [hne]

end Row.Holds

/-! ## Rows made of a message -/

/-- What the columns of an attachment hold where there never was one. -/
def Attachment.blank : Attachment :=
  { name := "", mimeType := "", size := 0, expires := 0, url := "", owner := "" }

/-- The cells of a message, with its tags as a text and with the attachment that its
columns are to hold. -/
def entryCells (m : Message) (state : DeliveryState) (tags : String) (a : Attachment) :
    List (String × Cell) :=
  [("id", .ofString m.id), ("time", .integer m.time), ("topic", .ofString m.topic),
    ("message", .ofString m.body), ("title", .ofString m.title),
    ("priority", .integer (Int64.ofNat m.priority.toNat)), ("tags", .ofString tags),
    ("click", .ofString m.click), ("attachment_present", .ofBool m.attachment.isSome),
    ("attachment_name", .ofString a.name), ("attachment_type", .ofString a.mimeType),
    ("attachment_size", .integer (Int64.ofNat a.size.toNat)),
    ("attachment_expires", .integer a.expires), ("attachment_url", .ofString a.url),
    ("attachment_owner", .ofString a.owner), ("encoding", .ofString m.encoding),
    ("published", .ofBool state.isPublished)]

/-- The columns that a message is put into. -/
def cellNames : List String :=
  ["id", "time", "topic", "message", "title", "priority", "tags", "click", "attachment_present",
    "attachment_name", "attachment_type", "attachment_size", "attachment_expires",
    "attachment_url", "attachment_owner", "encoding", "published"]

theorem names_entryCells (m : Message) (state : DeliveryState) (tags : String) (a : Attachment) :
    (entryCells m state tags a).map (·.1) = cellNames := rfl

section Writing

variable {m : Message} {stored : String} {t : Table}

theorem attachmentCells_ok {attachment : Option Attachment} {a : Attachment}
    (ha : attachment.getD .blank = a) (hsize : InInt64 a.size.toNat) :
    attachmentCells attachment =
      .ok [("attachment_present", .ofBool attachment.isSome), ("attachment_name", .ofString a.name),
        ("attachment_type", .ofString a.mimeType),
        ("attachment_size", .integer (Int64.ofNat a.size.toNat)),
        ("attachment_expires", .integer a.expires), ("attachment_url", .ofString a.url),
        ("attachment_owner", .ofString a.owner)] := by
  subst ha
  cases attachment with
  | none => rfl
  | some a =>
      simp only [Option.getD_some] at hsize ⊢
      unfold attachmentCells
      simp only [hsize, if_true, Option.isSome_some]

/-- A message of the right kind has cells unless it is refused, and if it is, then for the
same reason. -/
theorem messageCells_eq (hevent : m.event = .message) (state : DeliveryState) :
    (∃ e, m.refusal? = some e ∧ messageCells m state = .error e) ∨
      ∃ stored a, m.refusal? = none ∧ Tags.encode m.tags = .ok stored ∧
        InInt64 a.size.toNat ∧ m.attachment.all (· = a) ∧
        messageCells m state = .ok (entryCells m state stored a) := by
  unfold Message.refusal? messageCells
  rw [if_neg (not_not_intro hevent)]
  cases htags : Tags.encode m.tags with
  | error tag => exact .inl ⟨_, rfl, rfl⟩
  | ok stored =>
      by_cases hsize : InInt64 (m.attachment.getD .blank).size.toNat
      · refine .inr ⟨stored, m.attachment.getD .blank, ?_, rfl, hsize, ?_, ?_⟩
        · cases ha : m.attachment with
          | none => rfl
          | some a =>
              rw [ha] at hsize
              exact if_pos hsize
        · cases m.attachment <;> simp
        · rw [attachmentCells_ok rfl hsize]
          rfl
      · cases ha : m.attachment with
        | none => exact absurd (by rw [ha]; decide) hsize
        | some a =>
            simp only [ha, Option.getD_some] at hsize
            refine .inl ⟨.invalidMessage (.attachmentSize a.size), if_neg hsize, ?_⟩
            have hcells : attachmentCells (some a) =
                .error (.invalidMessage (.attachmentSize a.size)) := by
              unfold attachmentCells
              simp only [hsize, if_false]
            rw [hcells]
            rfl

namespace Table.IsCurrent

variable {values : List (String × Cell)} {name : String}

theorem cell_nextRow_text (ht : t.IsCurrent) (hname : Layout.IsText name)
    (hnodup : (values.map fun v => nameKey v.1).Nodup) {s : String}
    (hmem : (name, .ofString s) ∈ values) :
    (Database.nextRow t values).cell name = .ofString s := by
  obtain ⟨hkey, hcurrent, htext⟩ := hname
  obtain ⟨c, hc, -, haffinity, -⟩ := ht.exists_column? (by rw [hkey]; exact hcurrent)
  have hcell := Database.cell_nextRow_of_mem hc hnodup hmem
  rw [haffinity, hkey, Layout.affinity, if_neg htext] at hcell
  exact hcell

theorem cell_nextRow_integer (ht : t.IsCurrent) (hname : Layout.IsInteger name)
    (hnodup : (values.map fun v => nameKey v.1).Nodup) {n : Int64}
    (hmem : (name, .integer n) ∈ values) :
    (Database.nextRow t values).cell name = .integer n := by
  obtain ⟨hkey, hcurrent, hinteger⟩ := hname
  obtain ⟨c, hc, -, haffinity, -⟩ := ht.exists_column? (by rw [hkey]; exact hcurrent)
  have hcell := Database.cell_nextRow_of_mem hc hnodup hmem
  rw [haffinity, hkey, Layout.affinity, if_pos hinteger] at hcell
  exact hcell

end Table.IsCurrent

/-- A row made of a message holds it. -/
theorem Row.Holds.nextRow (ht : t.IsCurrent) (state : DeliveryState) {a : Attachment}
    (hevent : m.event = .message) (htags : Tags.encode m.tags = .ok stored)
    (hsize : InInt64 a.size.toNat) (ha : m.attachment.all (· = a)) :
    (Database.nextRow t (entryCells m state stored a)).Holds
      { rowId := Table.nextId (t.rows.map (·.id)), message := m, state } := by
  have hnodup : ((entryCells m state stored a).map fun v => nameKey v.1).Nodup :=
    (by decide : (cellNames.map nameKey).Nodup)
  have htext {name s : String} (hname : Layout.IsText name)
      (hmem : (name, .ofString s) ∈ entryCells m state stored a) :=
    ht.cell_nextRow_text hname hnodup hmem
  have hinteger {name : String} {n : Int64} (hname : Layout.IsInteger name)
      (hmem : (name, .integer n) ∈ entryCells m state stored a) :=
    ht.cell_nextRow_integer hname hnodup hmem
  constructor
  case rowId => rfl
  case event => exact hevent
  case id => exact htext (by decide) (by simp [entryCells])
  case time => exact hinteger (by decide) (by simp [entryCells])
  case topic => exact htext (by decide) (by simp [entryCells])
  case body => exact htext (by decide) (by simp [entryCells])
  case title => exact htext (by decide) (by simp [entryCells])
  case priority => exact hinteger (by decide) (by simp [entryCells])
  case tags => exact ⟨stored, htext (by decide) (by simp [entryCells]), Tags.decode_encode htags⟩
  case click => exact htext (by decide) (by simp [entryCells])
  case encoding => exact htext (by decide) (by simp [entryCells])
  case published => exact hinteger (by decide) (by simp [entryCells, Cell.ofBool])
  case present => exact hinteger (by decide) (by simp [entryCells, Cell.ofBool])
  case attachment =>
    refine ⟨a, Int64.ofNat a.size.toNat, ?_, ?_⟩
    · constructor
      case name => exact htext (by decide) (by simp [entryCells])
      case mimeType => exact htext (by decide) (by simp [entryCells])
      case size => exact hinteger (by decide) (by simp [entryCells])
      case expires => exact hinteger (by decide) (by simp [entryCells])
      case url => exact htext (by decide) (by simp [entryCells])
      case owner => exact htext (by decide) (by simp [entryCells])
    · intro b hb
      have hb : m.attachment = some b := hb
      rw [hb, Option.all_some, decide_eq_true_eq] at ha
      exact ⟨ha, hsize, rfl⟩

end Writing

end MessageCache
