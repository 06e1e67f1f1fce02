/-
# A query of messages gives all that it selects, or nothing

The cells of the rows hold anything.  A condition selects rows whether they can be read or
not, and what becomes of the selected ones is all that counts (`Store.AllOrNothing`):

    each of them can be read     one message for each of them, in the order of their times
    one of them cannot           an error that says so, and no message at all

Which rows can be read is said of their cells (`Row.IsMessage`).  The other rows may be
whatever they are, as many as there are: with other ones in their place the answer is the
same.
-/
import MessageCache.Proofs.Store.Damage

namespace MessageCache

namespace Store

/-- A query of messages answers iff each row that it selects is that of a message. -/
structure AllOrNothing (db : Database) (t : Table) (selects : Row → Bool)
    (query : Database → Except StoreError (List Message)) : Prop where
  answered : (∃ ms, query db = .ok ms) ↔ ∀ r ∈ t.rows, selects r = true → r.IsMessage
  /-- The messages of an answer are those of the selected rows, one for each. -/
  each : ∀ ms, query db = .ok ms → ∃ rows, rows.Perm (t.rows.filter selects) ∧
    List.Forall₂ (fun r m => readMessage (Database.project t messageColumns r) = .ok m) rows ms
  failed : ∀ e, query db = .error e → e.IsDecode
  /-- Rows that are not selected have no effect. -/
  unselected : ∀ rows, rows.filter selects = t.rows.filter selects →
    query (db.setTable messagesTable { t with rows }) = query db

/-- The rows that a poll selects, which are none if it asks for no messages. -/
def pollSelects (t : Table) (topic : String) (bound : Since) (scheduled : Bool) (r : Row) : Bool :=
  bound.timestamp.any fun time => (sinceCondition topic time scheduled).holds t r

end Store

section Queries

variable {db : Database} {t : Table}

/-- What is read of rows is read of each of them. -/
theorem readRows_eq_ok {α : Type} {read : ResultRow → Except ReadFault α} {rows : List ResultRow}
    {xs : List α} :
    Store.readRows read rows = .ok xs ↔ List.Forall₂ (fun row a => read row = .ok a) rows xs := by
  constructor
  · intro h
    induction rows generalizing xs with
    | nil =>
        cases h
        exact .nil
    | cons row rest ih =>
        rw [Store.readRows] at h
        cases hread : read row with
        | error fault =>
            rw [hread] at h
            cases h
        | ok a =>
            rw [hread] at h
            obtain ⟨as, has, rfl⟩ := map_eq_ok.mp h
            exact .cons hread (ih has)
  · intro h
    rw [readRows_eq (f := id) h, List.map_id]

/-- Chosen from other rows are the same, if those that the condition means are. -/
theorem Database.chosenRows_withRows {cond : Condition} {rows : List Row}
    (h : rows.filter (cond.holds t) = t.rows.filter (cond.holds t)) (orderBy : Option String) :
    chosenRows { t with rows } cond orderBy = chosenRows t cond orderBy := by
  have hfilter : rows.filter (cond.holds { t with rows }) = t.rows.filter (cond.holds t) := by
    rw [← h]
    exact List.filter_congr fun r _ => cond.holds_withRows t rows r
  unfold chosenRows
  rw [hfilter]
  rfl

theorem messagesWhere_withRows {cond : Condition} {rows : List Row}
    (ht : db.table? messagesTable = some t) (hcurrent : t.IsCurrent) (hknown : cond.IsKnown)
    (h : rows.filter (cond.holds t) = t.rows.filter (cond.holds t)) :
    Store.messagesWhere (db.setTable messagesTable { t with rows }) cond =
      Store.messagesWhere db cond := by
  have hother : (db.setTable messagesTable { t with rows }).table? messagesTable =
      some { t with rows } := Database.table?_setTable_self db messagesTable _
  unfold Store.messagesWhere
  rw [Database.select_eq ht (hknown.missing?_eq_none hcurrent),
    Database.select_eq hother (hknown.missing?_eq_none hcurrent), Database.chosenRows_withRows h]
  rfl

theorem messagesWhere_allOrNothing {cond : Condition} (ht : db.table? messagesTable = some t)
    (hcurrent : t.IsCurrent) (hknown : cond.IsKnown) :
    Store.AllOrNothing db t (cond.holds t) (Store.messagesWhere · cond) := by
  have houtcome := messagesWhere_outcome ht hcurrent hknown
  constructor
  case answered =>
    constructor
    · rintro ⟨ms, hms⟩ r hr hselected
      by_contra hnot
      rw [hms] at houtcome
      cases houtcome with
      | answer _ hsound => exact hsound ⟨r, hr, hselected, hnot⟩
    · intro hall
      generalize Store.messagesWhere db cond = answer at houtcome ⊢
      cases houtcome with
      | answer ms _ => exact ⟨ms, rfl⟩
      | failure e hdamaged _ =>
          obtain ⟨r, hr, hselected, hnot⟩ := hdamaged
          exact absurd (hall r hr hselected) hnot
  case each =>
    intro ms hms
    unfold Store.messagesWhere at hms
    rw [Database.select_eq ht (hknown.missing?_eq_none hcurrent)] at hms
    exact ⟨_, sortBy_perm _, List.forall₂_map_left_iff.mp (readRows_eq_ok.mp hms)⟩
  case failed =>
    intro e he
    rw [he] at houtcome
    cases houtcome with
    | failure _ _ hkind => exact hkind
  case unselected => exact fun rows hrows => messagesWhere_withRows ht hcurrent hknown hrows

theorem messagesSince_allOrNothing (ht : db.table? messagesTable = some t)
    (hcurrent : t.IsCurrent) (topic : String) (bound : Since) (scheduled : Bool) :
    Store.AllOrNothing db t (Store.pollSelects t topic bound scheduled)
      (Store.messagesSince · topic bound scheduled) := by
  unfold Store.pollSelects Store.messagesSince
  cases bound.timestamp with
  | some time =>
      exact messagesWhere_allOrNothing ht hcurrent
        (Store.isKnown_sinceCondition topic time scheduled)
  | none =>
      constructor
      case answered => simp
      case each =>
        intro ms hms
        cases hms
        exact ⟨[], by simp, .nil⟩
      case failed =>
        intro e he
        cases he
      case unselected => exact fun _ _ => rfl

end Queries

/-- Whatever is in the rows, a poll and the question for what is due give a message for
each row that they select, or fail if one of these cannot be read. -/
theorem queries_allOrNothing {db : Database} {t : Table} (ht : db.table? messagesTable = some t)
    (hcurrent : t.IsCurrent) :
    (∀ topic bound scheduled, Store.AllOrNothing db t (Store.pollSelects t topic bound scheduled)
        (Store.messagesSince · topic bound scheduled)) ∧
      ∀ now, Store.AllOrNothing db t ((Store.dueCondition now).holds t)
        (Store.messagesDue · now) := by
  refine ⟨messagesSince_allOrNothing ht hcurrent, ?_⟩
  intro now
  exact messagesWhere_allOrNothing ht hcurrent (Store.isKnown_dueCondition now)

/-- A message without an attachment, of another topic. -/
def soundCells : List (String × Cell) :=
  [("id", .ofString "a"), ("time", .integer 5), ("topic", .ofString "u"), ("message", .ofString "x"),
    ("title", .ofString ""), ("priority", .integer 3), ("tags", .ofString ""),
    ("click", .ofString ""), ("attachment_name", .ofString ""), ("attachment_type", .ofString ""),
    ("attachment_size", .integer (-1)), ("attachment_expires", .integer 0),
    ("attachment_url", .ofString ""), ("attachment_owner", .ofString ""),
    ("encoding", .ofString ""), ("published", .ofBool true), ("attachment_present", .ofBool false)]

def soundRow : Row := { id := 2, cells := soundCells }

theorem isMessage_soundRow : soundRow.IsMessage := by
  constructor
  case texts =>
    have hall : ∀ name ∈ ["id", "topic", "message", "title", "tags", "click", "attachment_name",
        "attachment_type", "attachment_url", "attachment_owner", "encoding"],
        ∃ s ∈ ["a", "u", "x", ""], findCell name soundCells = .ofString s := by decide
    intro name hname
    obtain ⟨s, -, hs⟩ := hall name hname
    exact ⟨s, hs⟩
  case integers =>
    have hall : ∀ name ∈ ["time", "attachment_present", "attachment_size", "attachment_expires"],
        ∃ n ∈ [5, 0, -1], findCell name soundCells = .integer n := by decide
    intro name hname
    obtain ⟨n, -, hn⟩ := hall name hname
    exact ⟨n, hn⟩
  case priority => exact ⟨3, rfl⟩
  case size => exact fun hflag => absurd rfl hflag

/-- The two rows in the table of a new store. -/
theorem exists_pair : ∃ (db : Database) (t : Table),
    db.table? messagesTable = some t ∧ t.IsCurrent ∧ t.rows = [namelessRow, soundRow] := by
  obtain ⟨t, -, hcurrent, -⟩ := represents_fresh.exists_table
  exact ⟨Database.empty.setTable messagesTable { t with rows := [namelessRow, soundRow] }, _,
    Database.table?_setTable_self _ messagesTable _, hcurrent, rfl⟩

/-- A poll of one topic fails for a row without an id, and one of another topic gives the
message that it selects. -/
theorem queries_allOrNothing_pair : ∃ (db : Database) (t : Table),
    db.table? messagesTable = some t ∧ t.IsCurrent ∧ t.rows = [namelessRow, soundRow] ∧
      (¬ ∃ ms, Store.messagesSince db "t" .all true = .ok ms) ∧
      ∃ m, Store.messagesSince db "u" .all true = .ok [m] := by
  obtain ⟨db, t, ht, hcurrent, hrows⟩ := exists_pair
  obtain ⟨hsince, -⟩ := queries_allOrNothing ht hcurrent
  have hselects (topic : String) (r : Row) : Store.pollSelects t topic .all true r =
      (Comparison.eq.holds (r.cell "topic") (.ofString topic) &&
        Comparison.ge.holds (r.cell "time") (.integer 0)) := by
    have htopic := hcurrent.holds_text (r := r) (by decide : Layout.IsText "topic") .eq topic
    have htime := hcurrent.holds_integer (r := r) (by decide : Layout.IsInteger "time") .ge 0
    rw [← htopic, ← htime]
    rfl
  have hnameless : Store.pollSelects t "t" .all true namelessRow = true := by
    rw [hselects]
    decide +kernel
  have hchosen : t.rows.filter (Store.pollSelects t "u" .all true) = [soundRow] := by
    rw [hrows, List.filter_congr fun r _ => hselects "u" r]
    decide +kernel
  refine ⟨db, t, ht, hcurrent, hrows, ?_, ?_⟩
  · intro hanswer
    have hall := (hsince "t" .all true).answered.mp hanswer namelessRow (by simp [hrows]) hnameless
    exact not_isText_namelessRow (hall.texts "id" List.mem_cons_self)
  · have hu := hsince "u" .all true
    have hmessages : ∀ r ∈ t.rows, Store.pollSelects t "u" .all true r = true → r.IsMessage := by
      intro r hr hselected
      have hmem := List.mem_filter.mpr ⟨hr, hselected⟩
      rw [hchosen, List.mem_singleton] at hmem
      rw [hmem]
      exact isMessage_soundRow
    obtain ⟨ms, hms⟩ := hu.answered.mpr hmessages
    obtain ⟨rows, hperm, hread⟩ := hu.each ms hms
    have hlength := hread.length_eq.symm.trans hperm.length_eq
    rw [hchosen] at hlength
    obtain ⟨m, rfl⟩ := List.length_eq_one_iff.mp hlength
    exact ⟨m, hms⟩

end MessageCache
