/-
# Which rows can be read

The cells of a table hold anything: null, numbers of both kinds, texts that are no UTF-8,
blobs.  A cell can be read as a text, an integer, a byte or a size iff it is one, and so a
row makes a message iff each of its cells is what the message needs there (`Row.IsMessage`):

    texts         UTF-8, in every text column
    integers      in every column of numbers
    the priority  an integer from 0 to 255
    the size      not negative, where the flag for the attachment is not zero

Such a row holds an entry if its two flags are zero or one (`Row.IsMessage.holds`).

A reading that goes through rows stops at the first that cannot be read, so all of it fails
iff there is one (`readRows_outcome`).
-/
import MessageCache.Proofs.Store.Row
import MessageCache.Store.Operations

namespace MessageCache

/-! ## Cells -/

/-- Bytes that can be read are those of the text. -/
theorem Utf8.read_eq_ok {b : Bytes} {s : String} : read b = .ok s ↔ b = bytes s := by
  constructor
  · intro h
    unfold read at h
    split at h
    · rename_i s' hs'
      obtain rfl := Except.ok.inj h
      unfold String.fromUTF8? at hs'
      split at hs'
      · cases hs'
        rfl
      · cases hs'
    · cases h
  · rintro rfl
    exact read_bytes s

namespace Cell

/-- The cell is a text, in UTF-8. -/
def IsText (c : Cell) : Prop := ∃ s, c = .ofString s

def IsInteger (c : Cell) : Prop := ∃ n, c = .integer n

/-- The cell is an integer from 0 to 255. -/
def IsByte (c : Cell) : Prop := ∃ p : UInt8, c = .integer (Int64.ofNat p.toNat)

/-- The cell is an integer that is not negative. -/
def IsSize (c : Cell) : Prop := ∃ n, c = .integer n ∧ 0 ≤ n

/-- A cell that compares as equal to a text is that text. -/
theorem IsText.of_same {c d : Cell} (h : c.same d = true) (hc : c.IsText) : d.IsText := by
  obtain ⟨s, rfl⟩ := hc
  rw [same, Bool.and_eq_true] at h
  cases d with
  | text b =>
      simp only [le, ofString, rank, magnitude, content, Nat.lt_irrefl, Int.lt_irrefl,
        decide_false, decide_true, Bool.false_or, Bool.true_and] at h
      have hbytes : b = Utf8.bytes s :=
        List.le_antisymm (of_decide_eq_true h.2) (of_decide_eq_true h.1)
      exact ⟨s, congrArg Cell.text hbytes⟩
  | null | integer n | real x | blob b => simp [le, ofString, rank] at h

end Cell

namespace ResultRow

variable {row : ResultRow} {i : Nat}

theorem exists_text_iff : (∃ s, text row i = .ok s) ↔ (cell row i).2.IsText := by
  constructor
  · rintro ⟨s, hs⟩
    unfold text at hs
    split at hs
    · rename_i column b hcell
      rw [hcell]
      cases hread : Utf8.read b with
      | error fault =>
          rw [hread] at hs
          cases hs
      | ok s' => exact ⟨s', congrArg Cell.text (Utf8.read_eq_ok.mp hread)⟩
    · cases hs
  · rintro ⟨s, hs⟩
    exact ⟨s, text_eq hs⟩

theorem integer_eq_ok {n : Int64} : integer row i = .ok n ↔ (cell row i).2 = .integer n := by
  constructor
  · intro h
    unfold integer at h
    split at h
    · rename_i column m hcell
      rw [hcell, Except.ok.inj h]
    · cases h
  · exact integer_eq

theorem exists_integer_iff : (∃ n, integer row i = .ok n) ↔ (cell row i).2.IsInteger := by
  simp only [integer_eq_ok, Cell.IsInteger]

theorem exists_flag_iff : (∃ b, flag row i = .ok b) ↔ (cell row i).2.IsInteger := by
  simp only [flag, map_eq_ok, integer_eq_ok, Cell.IsInteger]
  constructor
  · rintro ⟨-, n, hn, -⟩
    exact ⟨n, hn⟩
  · rintro ⟨n, hn⟩
    exact ⟨_, n, hn, rfl⟩

/-- A flag is set iff the cell is not zero. -/
theorem flag_eq_ok {b : Bool} :
    flag row i = .ok b ↔ (cell row i).2.IsInteger ∧ (b = true ↔ (cell row i).2 ≠ .integer 0) := by
  simp only [flag, map_eq_ok, integer_eq_ok, Cell.IsInteger]
  constructor
  · rintro ⟨n, hn, rfl⟩
    exact ⟨⟨n, hn⟩, by simp [hn]⟩
  · rintro ⟨⟨n, hn⟩, hb⟩
    refine ⟨n, hn, ?_⟩
    rw [Bool.eq_iff_iff, hb, hn]
    simp

theorem exists_byte_iff : (∃ p, byte row i = .ok p) ↔ (cell row i).2.IsByte := by
  constructor
  · rintro ⟨p, hp⟩
    unfold byte at hp
    obtain ⟨n, hn, hp⟩ := bind_eq_ok.mp hp
    rw [integer_eq_ok] at hn
    have h255 : (255 : Int64).toInt = 255 := rfl
    by_cases hsmall : n < 0
    · rw [if_pos hsmall] at hp
      cases hp
    · by_cases hlarge : 255 < n
      · rw [if_neg hsmall, if_pos hlarge] at hp
        cases hp
      · rw [Int64.lt_iff_toInt_lt, Int64.toInt_zero] at hsmall
        rw [Int64.lt_iff_toInt_lt, h255] at hlarge
        have hbyte : (UInt8.ofNat n.toInt.toNat).toNat = n.toInt.toNat := by
          rw [UInt8.toNat_ofNat', Nat.mod_eq_of_lt]
          omega
        refine ⟨UInt8.ofNat n.toInt.toNat, hn.trans (congrArg Cell.integer ?_)⟩
        rw [← Int64.toInt_inj, toInt_ofNat ⟨by omega, by omega⟩, hbyte]
        omega
  · rintro ⟨p, hp⟩
    exact ⟨p, byte_eq hp⟩

theorem exists_size_iff {n : Int64} : (∃ s, size n i = .ok s) ↔ 0 ≤ n := by
  unfold size
  split
  · rename_i h
    simp [Int64.not_le.mpr h]
  · rename_i h
    simp [Int64.not_lt.mp h]

end ResultRow

/-! ## Rows -/

/-- The cells of the row are those of some message. -/
structure Row.IsMessage (r : Row) : Prop where
  texts : ∀ name ∈ ["id", "topic", "message", "title", "tags", "click", "attachment_name",
    "attachment_type", "attachment_url", "attachment_owner", "encoding"], (r.cell name).IsText
  integers : ∀ name ∈ ["time", "attachment_present", "attachment_size", "attachment_expires"],
    (r.cell name).IsInteger
  priority : (r.cell "priority").IsByte
  size : r.cell "attachment_present" ≠ .integer 0 → (r.cell "attachment_size").IsSize

section Rows

variable {ε α β : Type}

theorem exists_bind_eq_ok {x : Except ε α} {f : α → Except ε β} :
    (∃ b, (x >>= f) = .ok b) ↔ ∃ a, x = .ok a ∧ ∃ b, f a = .ok b := by
  simp only [bind_eq_ok]
  constructor
  · rintro ⟨b, a, hx, hf⟩
    exact ⟨a, hx, b, hf⟩
  · rintro ⟨a, hx, b, hf⟩
    exact ⟨b, a, hx, hf⟩

variable {t : Table} {r : Row}

theorem exists_readAttachment_iff {row : ResultRow} :
    (∃ a, readAttachment row = .ok a) ↔
      ((ResultRow.cell row 8).2.IsInteger ∧ (ResultRow.cell row 9).2.IsText ∧
        (ResultRow.cell row 10).2.IsText ∧ (ResultRow.cell row 11).2.IsInteger ∧
        (ResultRow.cell row 12).2.IsInteger ∧ (ResultRow.cell row 13).2.IsText ∧
        (ResultRow.cell row 14).2.IsText) ∧
      ((ResultRow.cell row 8).2 ≠ .integer 0 → (ResultRow.cell row 11).2.IsSize) := by
  have hlast (present : Bool) (stored : Int64) (f : UInt64 → Attachment) :
      (∃ a, (if present = true then do
          let size ← ResultRow.size stored 11
          return some (f size)
        else return none : Except ReadFault (Option Attachment)) = .ok a) ↔
        (present = true → 0 ≤ stored) := by
    cases present <;>
      simp [exists_bind_eq_ok, ResultRow.exists_size_iff, pure, Except.pure]
  simp only [readAttachment, exists_bind_eq_ok, hlast, exists_and_right,
    ResultRow.exists_text_iff, ResultRow.exists_integer_iff]
  constructor
  · rintro ⟨present, hpresent, hname, hmimeType, stored, hstored, hexpires, hurl, howner, hsize⟩
    obtain ⟨hflag, hset⟩ := ResultRow.flag_eq_ok.mp hpresent
    have hstored := ResultRow.integer_eq_ok.mp hstored
    refine ⟨⟨hflag, hname, hmimeType, ⟨stored, hstored⟩, hexpires, hurl, howner⟩, ?_⟩
    exact fun hne => ⟨stored, hstored, hsize (hset.mpr hne)⟩
  · rintro ⟨⟨hflag, hname, hmimeType, ⟨stored, hstored⟩, hexpires, hurl, howner⟩, hsize⟩
    have hpresent : ResultRow.flag row 8 =
        .ok (decide ((ResultRow.cell row 8).2 ≠ .integer 0)) :=
      ResultRow.flag_eq_ok.mpr ⟨hflag, decide_eq_true_iff⟩
    refine ⟨_, hpresent, hname, hmimeType, stored, ResultRow.integer_eq_ok.mpr hstored, hexpires,
      hurl, howner, ?_⟩
    intro hset
    obtain ⟨n, hn, hnonneg⟩ := hsize (of_decide_eq_true hset)
    obtain rfl := Cell.integer.inj (hn.symm.trans hstored)
    exact hnonneg

/-- What is read of a row of a result is a message iff each cell is what it has to be. -/
theorem exists_readMessage_iff {row : ResultRow} :
    (∃ m, readMessage row = .ok m) ↔
      (ResultRow.cell row 5).2.IsByte ∧ (ResultRow.cell row 6).2.IsText ∧
      (∃ a, readAttachment row = .ok a) ∧ (ResultRow.cell row 0).2.IsText ∧
      (ResultRow.cell row 1).2.IsInteger ∧ (ResultRow.cell row 2).2.IsText ∧
      (ResultRow.cell row 3).2.IsText ∧ (ResultRow.cell row 4).2.IsText ∧
      (ResultRow.cell row 7).2.IsText ∧ (ResultRow.cell row 15).2.IsText := by
  simp only [readMessage, exists_bind_eq_ok, pure, Except.pure, Except.ok.injEq, exists_eq',
    and_true, exists_and_right, ResultRow.exists_text_iff, ResultRow.exists_integer_iff,
    ResultRow.exists_byte_iff]

/-- What is read of a row is a message iff its cells are those of one. -/
theorem Table.IsCurrent.exists_readMessage_iff {t : Table} {r : Row} (ht : t.IsCurrent) :
    (∃ m, readMessage (Database.project t messageColumns r) = .ok m) ↔ r.IsMessage := by
  have hcell : ∀ i name, messageColumns[i]? = some name →
      (ResultRow.cell (Database.project t messageColumns r) i).2 = r.cell name := by
    intro i name hi
    have hnames : ∀ name ∈ messageColumns, nameKey name = name ∧
        name ∈ Layout.releasedNames Layout.currentVersion := by decide
    obtain ⟨hkey, hname⟩ := hnames name (List.mem_of_getElem? hi)
    have := ht.cell_project (r := r) messageColumns hi (by rw [hkey]; exact hname)
    rwa [hkey] at this
  rw [MessageCache.exists_readMessage_iff, exists_readAttachment_iff]
  simp only [hcell 0 _ rfl, hcell 1 _ rfl, hcell 2 _ rfl, hcell 3 _ rfl, hcell 4 _ rfl,
    hcell 5 _ rfl, hcell 6 _ rfl, hcell 7 _ rfl, hcell 8 _ rfl, hcell 9 _ rfl, hcell 10 _ rfl,
    hcell 11 _ rfl, hcell 12 _ rfl, hcell 13 _ rfl, hcell 14 _ rfl, hcell 15 _ rfl]
  constructor
  · rintro ⟨hpriority, htags, ⟨⟨hpresent, hname, hmimeType, hsize, hexpires, hurl, howner⟩, hsign⟩,
      hid, htime, htopic, hbody, htitle, hclick, hencoding⟩
    constructor
    case texts =>
      simp only [List.forall_mem_cons, List.not_mem_nil, false_implies, implies_true, and_true]
      exact ⟨hid, htopic, hbody, htitle, htags, hclick, hname, hmimeType, hurl, howner, hencoding⟩
    case integers =>
      simp only [List.forall_mem_cons, List.not_mem_nil, false_implies, implies_true, and_true]
      exact ⟨htime, hpresent, hsize, hexpires⟩
    case priority => exact hpriority
    case size => exact hsign
  · intro h
    have htexts := h.texts
    have hintegers := h.integers
    simp only [List.forall_mem_cons, List.not_mem_nil, false_implies, implies_true, and_true]
      at htexts hintegers
    obtain ⟨hid, htopic, hbody, htitle, htags, hclick, hname, hmimeType, hurl, howner,
      hencoding⟩ := htexts
    obtain ⟨htime, hpresent, hsize, hexpires⟩ := hintegers
    exact ⟨h.priority, htags,
      ⟨⟨hpresent, hname, hmimeType, hsize, hexpires, hurl, howner⟩, h.size⟩,
      hid, htime, htopic, hbody, htitle, hclick, hencoding⟩

theorem Row.Holds.isMessage {e : Entry} (ht : t.IsCurrent) (h : r.Holds e) : r.IsMessage :=
  ht.exists_readMessage_iff.mp ⟨e.message, h.readMessage ht⟩

end Rows

/-- A stored size that is not negative is that of some attachment. -/
theorem Attachment.isStored_of_nonneg {a : Attachment} {size : Int64}
    (ha : a.size = .ofNat size.toInt.toNat) (hsize : 0 ≤ size) : a.IsStored size := by
  have hnonneg : 0 ≤ size.toInt := by simpa [Int64.le_iff_toInt_le] using hsize
  have hlt := size.toInt_lt
  have hnat : a.size.toNat = size.toInt.toNat := by
    rw [ha, UInt64.toNat_ofNat', Nat.mod_eq_of_lt]
    omega
  have hrange : InInt64 a.size.toNat := by
    rw [hnat]
    exact ⟨by omega, by omega⟩
  refine ⟨hrange, ?_⟩
  rw [← Int64.toInt_inj, toInt_ofNat hrange, hnat]
  omega

namespace Row.IsMessage

variable {r : Row}

/-- What the row has of an attachment, with its size if the flag says that it is one. -/
theorem holdsAttachment (h : r.IsMessage) : ∃ a size, r.HoldsAttachment a size ∧
    (r.cell "attachment_present" ≠ .integer 0 → a.IsStored size) := by
  obtain ⟨name, hname⟩ := h.texts "attachment_name" (by decide)
  obtain ⟨mimeType, hmimeType⟩ := h.texts "attachment_type" (by decide)
  obtain ⟨size, hsize⟩ := h.integers "attachment_size" (by decide)
  obtain ⟨expires, hexpires⟩ := h.integers "attachment_expires" (by decide)
  obtain ⟨url, hurl⟩ := h.texts "attachment_url" (by decide)
  obtain ⟨owner, howner⟩ := h.texts "attachment_owner" (by decide)
  refine ⟨{ name, mimeType, expires, url, owner, size := .ofNat size.toInt.toNat }, size,
    ⟨hname, hmimeType, hsize, hexpires, hurl, howner⟩, ?_⟩
  intro hpresent
  obtain ⟨n, hcell, hn⟩ := h.size hpresent
  obtain rfl : size = n := Cell.integer.inj (hsize.symm.trans hcell)
  exact Attachment.isStored_of_nonneg rfl hn

/-- If its two flags are zero or one, the row holds an entry. -/
theorem holds (h : r.IsMessage) (hpublished : ∃ b, r.cell "published" = .ofBool b)
    (hpresent : ∃ b, r.cell "attachment_present" = .ofBool b) : ∃ e, r.Holds e := by
  obtain ⟨id, hid⟩ := h.texts "id" (by decide)
  obtain ⟨time, htime⟩ := h.integers "time" (by decide)
  obtain ⟨topic, htopic⟩ := h.texts "topic" (by decide)
  obtain ⟨body, hbody⟩ := h.texts "message" (by decide)
  obtain ⟨title, htitle⟩ := h.texts "title" (by decide)
  obtain ⟨priority, hpriority⟩ := h.priority
  obtain ⟨tags, htags⟩ := h.texts "tags" (by decide)
  obtain ⟨click, hclick⟩ := h.texts "click" (by decide)
  obtain ⟨encoding, hencoding⟩ := h.texts "encoding" (by decide)
  obtain ⟨published, hpublished⟩ := hpublished
  obtain ⟨present, hpresent⟩ := hpresent
  obtain ⟨a, size, ha, hsize⟩ := h.holdsAttachment
  refine ⟨{ rowId := r.id, state := .ofFlag published
            message := { id, time, event := .message, topic, body, title, priority, click
                         tags := Tags.decode tags, encoding
                         attachment := if present then some a else none } }, ?_⟩
  constructor
  case rowId => rfl
  case event => rfl
  case id => exact hid
  case time => exact htime
  case topic => exact htopic
  case body => exact hbody
  case title => exact htitle
  case priority => exact hpriority
  case tags => exact ⟨tags, htags, rfl⟩
  case click => exact hclick
  case encoding => exact hencoding
  case published =>
    rw [hpublished]
    cases published <;> rfl
  case present =>
    rw [hpresent]
    cases present <;> rfl
  case attachment =>
    refine ⟨a, size, ha, ?_⟩
    intro b hb
    obtain ⟨hset, heq⟩ := Option.ite_none_right_eq_some.mp (Option.mem_def.mp hb)
    refine ⟨(Option.some.inj heq).symm, hsize ?_⟩
    rw [hpresent, hset]
    decide

end Row.IsMessage

/-! ## Readings -/

/-- A reading gives an answer, or, where something is damaged, an error of a kind. -/
inductive Store.Outcome {α : Type} (kind : StoreError → Prop) (damaged : Prop) :
    Except StoreError α → Prop
  | answer (a : α) : ¬ damaged → Store.Outcome kind damaged (.ok a)
  | failure (e : StoreError) : damaged → kind e → Store.Outcome kind damaged (.error e)

/-- A value cannot be turned into what it is read as. -/
def StoreError.IsDecode (e : StoreError) : Prop := ∃ fault, e = .decode fault

/-- The database says that a value cannot be turned into what it is read as. -/
def StoreError.IsRead (e : StoreError) : Prop := ∃ fault, e = .database (.read fault)

namespace Store.Outcome

variable {α β : Type} {kind : StoreError → Prop} {damaged damaged' : Prop}
  {x : Except StoreError α}

theorem map (h : Outcome kind damaged x) (f : α → β) : Outcome kind damaged (x.map f) := by
  cases h with
  | answer a hsound => exact .answer (f a) hsound
  | failure e hdamaged he => exact .failure e hdamaged he

theorem congr (h : Outcome kind damaged x) (hiff : damaged ↔ damaged') :
    Outcome kind damaged' x := by
  cases h with
  | answer a hsound => exact .answer a (fun h => hsound (hiff.mpr h))
  | failure e hdamaged he => exact .failure e (hiff.mp hdamaged) he

end Store.Outcome

section Readings

variable {α : Type}

/-- A reading goes through all rows, or there is one that cannot be read. -/
theorem readRows_outcome (read : ResultRow → Except ReadFault α) (rows : List ResultRow) :
    Store.Outcome StoreError.IsDecode (∃ row ∈ rows, ¬ ∃ a, read row = .ok a)
      (Store.readRows read rows) := by
  induction rows with
  | nil => exact .answer [] (by simp)
  | cons row rest ih =>
      rw [Store.readRows]
      cases hread : read row with
      | error fault =>
          exact .failure _ ⟨row, List.mem_cons_self, by simp [hread]⟩ ⟨_, rfl⟩
      | ok a => exact (ih.map _).congr (by simp [hread])

theorem readIds_outcome (rows : List ResultRow) :
    Store.Outcome StoreError.IsRead (∃ row ∈ rows, ¬ ∃ s, ResultRow.text row 0 = .ok s)
      (Store.readIds rows) := by
  induction rows with
  | nil => exact .answer [] (by simp)
  | cons row rest ih =>
      rw [Store.readIds]
      cases hread : ResultRow.text row 0 with
      | error fault =>
          exact .failure _ ⟨row, List.mem_cons_self, by simp [hread]⟩ ⟨_, rfl⟩
      | ok s => exact (ih.map _).congr (by simp [hread])

end Readings

end MessageCache
