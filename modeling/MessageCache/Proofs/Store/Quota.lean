/-
# What an owner is charged for is what the messages say

Whether a message has an attachment is asked in two ways.  A message that is read has one if
the flag of its row is not zero.  The sum that an owner is charged takes the rows whose flag
is one, and adds up cells that are never read as those of a message.  With any other flag
the two would differ.  No such row comes about (`Row.Sound`):

    upgraded            the flag is one if there are a name and a url, and zero otherwise,
                        whatever else is left of an attachment
    added               the flag is that of the message
    marked, pruned      the flags of the rows that stay are as they were

What a row says of its state is no part of this; it may be any integer in a row that an
older release left, and so all rows are taken as published to say which messages they hold
(`Row.marked`).  So the sum is that of the messages, as long as it can be stored
(`charges_of_calls`).
-/
import MessageCache.Proofs.Schema.Legacy
import MessageCache.Proofs.Store.Damage
import MessageCache.Proofs.Store.Readable

namespace MessageCache

namespace Store

/-- All rows read as these messages, one by one. -/
def ReadsAs (db : Database) (ms : List Message) : Prop :=
  ∃ t, db.table? messagesTable = some t ∧ List.Forall₂
    (fun r m => readMessage (Database.project t messageColumns r) = .ok m) t.rows ms

/-- What the attachments of an owner that have not expired take up. -/
def quota (ms : List Message) (owner : String) (now : Int64) : Nat :=
  (((ms.filterMap (·.attachment)).filter fun a =>
    a.owner = owner ∧ (a.expires = 0 ∨ now ≤ a.expires)).map fun a => a.size.toNat).sum

/-- What a store with these messages charges an owner at a moment. -/
structure Charges (db : Database) (ms : List Message) (owner : String) (now : Int64) : Prop where
  answered : (∃ n, attachmentsSize db owner now = .ok n) ↔
    quota ms owner now ≤ Int64.maxValue.toInt
  total : ∀ n, attachmentsSize db owner now = .ok n → n.toNat = quota ms owner now
  failed : ∀ e, attachmentsSize db owner now = .error e → e = .database .integerOverflow

end Store

/-! ## Rows whose flag is zero or one -/

/-- The row reads as a message, and the flag for an attachment is zero or one. -/
structure Row.Sound (r : Row) : Prop where
  message : r.IsMessage
  flag : ∃ b, r.cell attachmentFlag = .ofBool b

/-- The row as that of a published message. -/
def Row.marked (r : Row) : Row := r.set "published" (.integer 1)

section Rows

variable {t : Table} {r : Row} {e : Entry}

theorem Row.cell_marked {name : String} (h : name ≠ "published") :
    r.marked.cell name = r.cell name := by
  rw [marked, cell_set, if_neg h]

theorem Database.project_marked (t : Table) (r : Row) :
    project t messageColumns r.marked = project t messageColumns r := by
  have hnames : ∀ name ∈ messageColumns, nameKey name ≠ "published" := by decide
  exact project_congr rfl fun name hname => Row.cell_marked (hnames name hname)

theorem Row.Holds.sound (ht : t.IsCurrent) (h : r.Holds e) : r.Sound :=
  ⟨h.isMessage ht, _, h.present⟩

theorem Row.Sound.marked (ht : t.IsCurrent) (h : r.Sound) : r.marked.Sound where
  message := by
    rw [← ht.exists_readMessage_iff, Database.project_marked, ht.exists_readMessage_iff]
    exact h.message
  flag := by
    rw [Row.cell_marked (by decide)]
    exact h.flag

theorem Row.Sound.exists_holds (ht : t.IsCurrent) (h : r.Sound) : ∃ e, r.marked.Holds e := by
  have hmarked := h.marked ht
  refine hmarked.message.holds ⟨true, ?_⟩ hmarked.flag
  rw [Row.marked, Row.cell_set, if_pos rfl]
  rfl

/-- Whether a row is charged does not depend on its state. -/
theorem Row.chargedCondition_marked (t : Table) (r : Row) (owner : String) (now : Int64) :
    (Store.chargedCondition owner now).holds t r.marked =
      (Store.chargedCondition owner now).holds t r := by
  have hnames : ∀ name ∈ ["attachment_present", "attachment_owner", "attachment_expires",
      "attachment_expires"], nameKey name ≠ "published" := by decide
  exact Condition.holds_congr fun name hname => Row.cell_marked (hnames name hname)

end Rows

/-! ## Stores whose rows are sound -/

/-- The messages have the current columns and sound rows. -/
def Store.Sound (db : Database) : Prop :=
  ∃ t, db.table? messagesTable = some t ∧ t.IsCurrent ∧ ∀ r ∈ t.rows, r.Sound

section Calls

variable {db : Database} {t : Table}

/-- Other rows in the same columns. -/
theorem Store.Sound.of_rows (db : Database) {rows : List Row} (hcurrent : t.IsCurrent)
    (hrows : ∀ r ∈ rows, r.Sound) : Store.Sound (db.setTable messagesTable { t with rows }) :=
  ⟨_, Database.table?_setTable_self db messagesTable _, hcurrent, hrows⟩

/-- Every call leaves the rows sound. -/
theorem Store.Sound.call (h : Store.Sound db) (call : Store.Call) :
    Store.Sound (call.run db).2 := by
  obtain ⟨t, ht, hcurrent, hrows⟩ := h
  have hsame : Store.Sound db := ⟨t, ht, hcurrent, hrows⟩
  cases call with
  | add m now =>
      rw [Store.Call.run]
      rcases add_of_current ht hcurrent m now with ⟨e, -, hadd⟩ | ⟨r, -, hr, hadd⟩
      · rw [hadd]
        exact hsame
      · rw [hadd]
        split
        · exact hsame
        · refine .of_rows db hcurrent fun s hs => ?_
          rcases Table.mem_place hs with rfl | hs
          · exact hr.sound hcurrent
          · exact hrows s hs
  | mark id =>
      rw [Store.Call.run, markPublished_of_current ht hcurrent]
      refine .of_rows db hcurrent fun s hs => ?_
      obtain ⟨r, hr, rfl⟩ := List.mem_map.mp hs
      split
      · exact (hrows r hr).marked hcurrent
      · exact hrows r hr
  | prune olderThan =>
      rw [Store.Call.run, prune_of_current ht hcurrent]
      exact .of_rows db hcurrent fun r hr => hrows r (List.mem_filter.mp hr).1
  | since _ _ _ | due _ | state _ | count _ | total | topics | size _ _ | expired _ => exact hsame

theorem Store.Sound.run (h : Store.Sound db) (calls : List Store.Call) :
    Store.Sound (Store.run db calls).2 := by
  induction calls generalizing db with
  | nil => exact h
  | cons call rest ih => exact ih (h.call call)

end Calls

/-! ## The sum -/

section Sums

variable {db : Database} {t : Table} {es : Contents} {owner : String} {now : Int64}

theorem Store.ReadsAs.unique {ms ms' : List Message} (h : ReadsAs db ms) (h' : ReadsAs db ms') :
    ms = ms' := by
  obtain ⟨t, ht, hrows⟩ := h
  obtain ⟨t', ht', hrows'⟩ := h'
  obtain rfl : t = t' := Option.some.inj (ht.symm.trans ht')
  exact List.right_unique_forall₂' (fun _ _ _ hm hm' => Except.ok.inj (hm.symm.trans hm'))
    hrows hrows'

/-- What is charged for entries is what their messages say. -/
theorem Contents.quota_eq (es : Contents) (owner : String) (now : Int64) :
    Store.quota (es.map (·.message)) owner now = es.charged owner now := by
  unfold Store.quota charged
  induction es with
  | nil => rfl
  | cons e rest ih =>
      cases ha : e.message.attachment with
      | none => simpa [Entry.isCharged, ha] using ih
      | some a =>
          have hcharged : e.isCharged owner now =
              decide (a.owner = owner ∧ (a.expires = 0 ∨ now ≤ a.expires)) := by
            simp [Entry.isCharged, ha]
          have hsize : e.size = a.size.toNat := by simp [Entry.size, ha]
          rw [List.map_cons, List.filterMap_cons_some ha, List.filter_cons, List.filter_cons,
            hcharged]
          split
          · rw [List.map_cons, List.map_cons, List.sum_cons, List.sum_cons, ih, hsize]
          · exact ih

/-- The sum is the same over the rows as those of published messages. -/
theorem Store.chargedTotal_marked (t : Table) (owner : String) (now : Int64) :
    Store.chargedTotal { t with rows := t.rows.map Row.marked } owner now =
      Store.chargedTotal t owner now := by
  have hrows : Store.chargedRows { t with rows := t.rows.map Row.marked } owner now =
      (Store.chargedRows t owner now).map Row.marked := by
    show (t.rows.map Row.marked).filter _ = (t.rows.filter _).map Row.marked
    rw [List.filter_map]
    refine congrArg _ (List.filter_congr fun r _ => ?_)
    rw [Function.comp_apply, Condition.holds_withRows, Row.chargedCondition_marked]
  have hcells : (fun r : Row => r.cell "attachment_size") ∘ Row.marked =
      fun r => r.cell "attachment_size" := funext fun r => Row.cell_marked (by decide)
  rw [Store.chargedTotal, Store.chargedTotal, hrows, List.map_map, hcells]

theorem attachmentsSize_of_marked (ht : db.table? messagesTable = some t)
    (hcurrent : t.IsCurrent) (hrows : List.Forall₂ (fun r e => r.marked.Holds e) t.rows es) :
    Store.attachmentsSize db owner now = es.charge owner now := by
  have hmarked : (db.setTable messagesTable { t with rows := t.rows.map Row.marked }).table?
      messagesTable = some _ := Database.table?_setTable_self db messagesTable _
  rw [attachmentsSize_eq_total ht hcurrent, ← Store.chargedTotal_marked,
    ← attachmentsSize_eq_total hmarked hcurrent]
  exact attachmentsSize_eq hmarked hcurrent (List.forall₂_map_left_iff.mpr hrows) owner now

theorem Contents.charges (h : Store.attachmentsSize db owner now = es.charge owner now) :
    Store.Charges db (es.map (·.message)) owner now := by
  have hrange : InInt64 (es.charged owner now) ↔
      (es.charged owner now : Int) ≤ Int64.maxValue.toInt := by
    have hmax : Int64.maxValue.toInt = 0x7FFFFFFFFFFFFFFF := rfl
    unfold InInt64
    omega
  constructor
  case answered =>
    rw [h, quota_eq, ← hrange]
    constructor
    · rintro ⟨n, hn⟩
      exact (charge_eq_ok.mp hn).1
    · intro hfits
      cases hcharge : es.charge owner now with
      | ok n => exact ⟨n, rfl⟩
      | error e => exact absurd hfits (charge_eq_error.mp hcharge).2
  case total =>
    intro n hn
    rw [quota_eq]
    exact (charge_eq_ok.mp (h ▸ hn)).2
  case failed =>
    intro e he
    exact (charge_eq_error.mp (h ▸ he)).1

/-- A store with sound rows charges for the messages that they read as. -/
theorem Store.Sound.charges (h : Store.Sound db) :
    ∃ ms, Store.ReadsAs db ms ∧ ∀ owner now, Store.Charges db ms owner now := by
  obtain ⟨t, ht, hcurrent, hrows⟩ := h
  obtain ⟨es, hes⟩ : ∃ es : Contents, List.Forall₂ (fun r e => r.marked.Holds e) t.rows es :=
    exists_forall₂ fun r hr => (hrows r hr).exists_holds hcurrent
  refine ⟨es.map (·.message), ⟨t, ht, List.forall₂_map_right_iff.mpr (hes.imp ?_)⟩, ?_⟩
  · intro r e he
    rw [← Database.project_marked]
    exact he.readMessage hcurrent
  · intro owner now
    exact Contents.charges (attachmentsSize_of_marked ht hcurrent hes)

end Sums

/-- A database that a store can be made of: there is nothing in it, or it is a store of an
older layout with rows that can be decoded. -/
inductive Store.Begins (db : Database) : Prop
  | fresh : db = .empty → Store.Begins db
  | historical (v : Nat) (t : Table) : v < Layout.currentVersion → Historical v db t →
      Store.Begins db

theorem Store.Begins.sound {db : Database} (h : Store.Begins db) :
    (ensureCurrent .granted db).result = .ok Layout.currentVersion ∧
      Store.Sound (ensureCurrent .granted db).database := by
  cases h with
  | fresh h =>
      subst h
      exact ⟨rfl, _, rfl, List.Perm.refl _, fun _ hr => absurd hr List.not_mem_nil⟩
  | historical v t hv h =>
      obtain ⟨hresult, u, hu, hcurrent, hrows⟩ := h.upgraded hv
      exact ⟨hresult, u, hu, hcurrent, fun r hr => ⟨(hrows r hr).1, (hrows r hr).2⟩⟩

/-- After any calls on a new or an upgraded store its rows read as messages, and an owner is
charged for what these say, unless that cannot be stored. -/
theorem charges_of_calls {db : Database} (h : Store.Begins db) (calls : List Store.Call) :
    (ensureCurrent .granted db).result = .ok Layout.currentVersion ∧
      ∃ ms, (∀ ms', Store.ReadsAs (Store.run (ensureCurrent .granted db).database calls).2 ms' ↔
          ms' = ms) ∧
        ∀ owner now,
          Store.Charges (Store.run (ensureCurrent .granted db).database calls).2 ms owner now := by
  obtain ⟨hresult, hsound⟩ := h.sound
  obtain ⟨ms, hms, hcharges⟩ := (hsound.run calls).charges
  refine ⟨hresult, ms, fun ms' => ⟨fun hms' => hms'.unique hms, ?_⟩, hcharges⟩
  rintro rfl
  exact hms

/-- A message of version 4 with the cells of an attachment that nobody owns. -/
def unownedCells (id url : String) (published : Int64) : List (String × Cell) :=
  [("id", .ofString id), ("time", .integer 7), ("topic", .ofString "t"),
    ("message", .ofString "x"), ("title", .ofString ""), ("priority", .integer 4),
    ("tags", .ofString ""), ("published", .integer published), ("click", .ofString ""),
    ("attachment_name", .ofString "n"), ("attachment_type", .ofString ""),
    ("attachment_size", .integer 5), ("attachment_expires", .integer 8),
    ("attachment_url", .ofString url), ("attachment_owner", .ofString ""),
    ("encoding", .ofString "")]

/-- One of two messages has a url for its attachment, and a state that no release wrote. -/
def unownedStore : List Statement :=
  .createTable messagesTable (Layout.released 4) ::
    .createIndex topicIndex messagesTable "topic" ::
    .insert messagesTable (unownedCells "a" "u" 7) ::
    .insert messagesTable (unownedCells "b" "" 0) :: recordVersion 4

theorem decodable_unowned {r : Row}
    (h : r.cells ∈ [unownedCells "a" "u" 7, unownedCells "b" "" 0]) : r.Decodable 4 := by
  constructor
  case integers =>
    have hall : ∀ cells ∈ [unownedCells "a" "u" 7, unownedCells "b" "" 0],
        ∀ name ∈ Layout.releasedNames 4, name ∈ Layout.integerColumns →
          ∃ n ∈ [7, 4, 0, 5, 8], findCell name cells = .integer n := by decide
    intro name hname hinteger
    obtain ⟨n, -, hn⟩ := hall r.cells h name hname hinteger
    exact ⟨n, hn⟩
  case texts =>
    have hall : ∀ cells ∈ [unownedCells "a" "u" 7, unownedCells "b" "" 0],
        ∀ name ∈ Layout.releasedNames 4, name ∉ Layout.integerColumns →
          ∃ s ∈ ["", "a", "b", "t", "x", "n", "u"], findCell name cells = .ofString s := by decide
    intro name hname htext
    obtain ⟨s, -, hs⟩ := hall r.cells h name hname htext
    exact ⟨s, hs⟩
  case priority =>
    have hall : ∀ cells ∈ [unownedCells "a" "u" 7, unownedCells "b" "" 0],
        findCell "priority" cells = .integer 4 := by decide
    exact fun _ => ⟨4, hall r.cells h⟩
  case size =>
    have hall : ∀ cells ∈ [unownedCells "a" "u" 7, unownedCells "b" "" 0],
        findCell "attachment_size" cells = .integer 5 := by decide
    exact fun _ _ => ⟨5, hall r.cells h, by decide⟩

theorem historical_unownedStore : ∃ db t, transaction .granted unownedStore .empty = .ok db ∧
    t.rows.length = 2 ∧ Historical 4 db t ∧ Store.attachmentsSize
      (Store.run (ensureCurrent .granted db).database [.prune 7, .mark "b"]).2 "" 8 = .ok 5 := by
  refine ⟨_, _, rfl, rfl, ⟨⟨rfl, ?_, rfl, ?_, ?_⟩, ?_, ?_⟩, ?_⟩
  · unfold Table.HasLayout
    decide
  · intro u hu
    cases hu
    exact ⟨rfl, rfl⟩
  · intro hnone
    cases hnone
  · decide
  · intro r hr
    exact decodable_unowned (List.mem_map_of_mem (f := Row.cells) hr)
  · decide +kernel

/-- The owner without a name is charged for the attachment that is there, and not for what
is left of the other one. -/
theorem charges_of_calls_unowned : ∃ db t ms, transaction .granted unownedStore .empty = .ok db ∧
    t.rows.length = 2 ∧ Historical 4 db t ∧
      Store.Charges (Store.run (ensureCurrent .granted db).database [.prune 7, .mark "b"]).2
        ms "" 8 ∧
      Store.quota ms "" 8 = 5 := by
  obtain ⟨db, t, hdb, hrows, hhistorical, hsize⟩ := historical_unownedStore
  obtain ⟨-, ms, -, hcharges⟩ :=
    charges_of_calls (.historical 4 t (by decide) hhistorical) [.prune 7, .mark "b"]
  have hquota := (hcharges "" 8).total 5 hsize
  exact ⟨db, t, ms, hdb, hrows, hhistorical, hcharges "" 8, hquota.symm⟩

end MessageCache
