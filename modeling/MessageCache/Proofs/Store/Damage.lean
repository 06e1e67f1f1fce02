/-
# How damage of the stored rows is reported

The rows of a table in the current layout may hold anything.  Each call that reads looks at
some cells of some rows, and fails iff one of them is not what it is read as (`Damaged`):

    polls, due    any cell of a message, in the rows that are asked for
    state         the flag of the first row with the id
    topics        the topic of any row
    size          the sum of the charged rows
    expired       the id of an expired row
    counts        nothing at all

There is one other failure, a sum that leaves the range of integers.  Damage is reported as
a value that cannot be decoded by every call but one: for what expired, an id that cannot
be read is reported as a failure of the database (`run_of_damaged`).
-/
import MessageCache.Proofs.Store.Decode
import MessageCache.Proofs.Store.Reclaim

namespace MessageCache

namespace Store

/-- A value that the call reads cannot be turned into what it is read as. -/
def Damaged (t : Table) : Call → Prop
  | .since topic bound scheduled => ∃ time ∈ bound.timestamp, ∃ r ∈ t.rows,
      (sinceCondition topic time scheduled).holds t r = true ∧ ¬ r.IsMessage
  | .due now => ∃ r ∈ t.rows, (dueCondition now).holds t r = true ∧ ¬ r.IsMessage
  | .state id => ∃ r ∈ t.rows.find? fun r => (idCondition id).holds t r,
      ¬ (r.cell "published").IsInteger
  | .topics => ∃ r ∈ t.rows, ¬ (r.cell "topic").IsText
  | .size owner now => ∃ total, chargedTotal t owner now = .ok total ∧
      total ≠ .null ∧ ¬ total.IsSize
  | .expired now => ∃ r ∈ t.rows, (expiredCondition now).holds t r = true ∧
      ¬ (r.cell "id").IsText
  | _ => False

end Store

section Readings

variable {db : Database} {t : Table} {cond : Condition}

theorem Database.mem_chosenRows {orderBy : Option String} {r : Row} :
    r ∈ chosenRows t cond orderBy ↔ r ∈ t.rows ∧ cond.holds t r = true := by
  cases orderBy with
  | none => exact List.mem_filter
  | some name => exact mem_sortBy.trans List.mem_filter

/-- What some row of a result is like, some chosen row is. -/
theorem Database.exists_chosen_iff {columns : List String} {orderBy : Option String}
    {P : ResultRow → Prop} :
    (∃ row ∈ (chosenRows t cond orderBy).map (project t columns), P row) ↔
      ∃ r ∈ t.rows, cond.holds t r = true ∧ P (project t columns r) := by
  constructor
  · rintro ⟨row, hrow, hP⟩
    obtain ⟨r, hr, rfl⟩ := List.mem_map.mp hrow
    obtain ⟨hr, hholds⟩ := mem_chosenRows.mp hr
    exact ⟨r, hr, hholds, hP⟩
  · rintro ⟨r, hr, hholds, hP⟩
    exact ⟨_, List.mem_map_of_mem (mem_chosenRows.mpr ⟨hr, hholds⟩), hP⟩

theorem messagesWhere_outcome (ht : db.table? messagesTable = some t) (hcurrent : t.IsCurrent)
    (hknown : cond.IsKnown) :
    Store.Outcome StoreError.IsDecode (∃ r ∈ t.rows, cond.holds t r = true ∧ ¬ r.IsMessage)
      (Store.messagesWhere db cond) := by
  unfold Store.messagesWhere
  rw [Database.select_eq ht (hknown.missing?_eq_none hcurrent)]
  refine (readRows_outcome readMessage _).congr ?_
  simp only [Database.exists_chosen_iff, hcurrent.exists_readMessage_iff]

theorem messageState_outcome (ht : db.table? messagesTable = some t) (hcurrent : t.IsCurrent)
    (id : String) :
    Store.Outcome StoreError.IsDecode
      (∃ r ∈ t.rows.find? fun r => (Store.idCondition id).holds t r,
        ¬ (r.cell "published").IsInteger) (Store.messageState db id) := by
  have hknown : t.missing? ["published", "id"] = none := hcurrent.missing?_eq_none (by decide)
  unfold Store.messageState
  rw [Database.select_eq ht hknown, ← List.head?_filter]
  unfold Database.chosenRows
  simp only
  cases t.rows.filter fun r => (Store.idCondition id).holds t r with
  | nil => exact .answer none (by simp)
  | cons r rest =>
      have hcell := hcurrent.cell_project (r := r) ["published"] (i := 0) rfl
        (by decide : nameKey "published" ∈ Layout.releasedNames Layout.currentVersion)
      have hflag : (∃ b, ResultRow.flag (Database.project t ["published"] r) 0 = .ok b) ↔
          (r.cell "published").IsInteger := by
        rw [ResultRow.exists_flag_iff, hcell]
        rfl
      show Store.Outcome _ _ (Except.mapError _ (ResultRow.flag _ 0) >>= _)
      cases hread : ResultRow.flag (Database.project t ["published"] r) 0 with
      | error fault =>
          refine .failure _ ?_ ⟨_, rfl⟩
          simp [← hflag, hread]
      | ok b =>
          refine .answer _ ?_
          simp [← hflag, hread]

/-- Rows are counted whatever is in them. -/
theorem count_outcome (ht : db.table? messagesTable = some t)
    (hknown : t.missing? cond.columns = none) :
    Store.Outcome StoreError.IsDecode False ((db.count messagesTable cond).mapError .database) := by
  rw [Database.count_eq ht hknown]
  exact .answer _ id

/-- Of cells that compare as equal one is left, which is a text iff the others are. -/
theorem Database.exists_dedup_iff (cells : List (String × Cell)) :
    (∃ c ∈ dedup cells, ¬ c.2.IsText) ↔ ∃ c ∈ cells, ¬ c.2.IsText := by
  induction cells with
  | nil => rfl
  | cons c rest ih =>
      rw [List.exists_mem_cons_iff, ← ih, dedup]
      cases dedup rest with
      | nil => simp
      | cons d ds =>
          simp only
          split
          · rename_i hsame
            have hswap : d.2.same c.2 = true := by
              rw [Cell.same, Bool.and_comm]
              exact hsame
            have htext : c.2.IsText ↔ d.2.IsText := ⟨.of_same hsame, .of_same hswap⟩
            rw [List.exists_mem_cons_iff, List.exists_mem_cons_iff, htext, or_self_left]
          · rw [List.exists_mem_cons_iff]

theorem topics_outcome (ht : db.table? messagesTable = some t) (hcurrent : t.IsCurrent) :
    Store.Outcome StoreError.IsDecode (∃ r ∈ t.rows, ¬ (r.cell "topic").IsText)
      (Store.topics db) := by
  have hknown : t.missing? ["topic", "topic"] = none := hcurrent.missing?_eq_none (by decide)
  obtain ⟨column, hflatten⟩ := exists_column_project hcurrent "topic" (by decide) (by decide)
  have hselect : db.select messagesTable ["topic"] .always (some "topic") = _ :=
    Database.select_eq ht hknown
  have hdistinct : db.distinct messagesTable "topic" =
      .ok ((Database.dedup ((Database.chosenRows t .always (some "topic")).map
        fun r => (column, r.cell "topic"))).map fun c => [c]) := by
    unfold Database.distinct
    rw [hselect, ok_bind, hflatten]
  have hrows := readRows_outcome (ResultRow.text · 0)
    ((Database.dedup ((Database.chosenRows t .always (some "topic")).map
      fun r => (column, r.cell "topic"))).map fun c => [c])
  unfold Store.topics
  rw [hdistinct]
  refine (hrows.map (List.map Topic.mk)).congr ?_
  have hcell (c : String × Cell) : ResultRow.cell [c] 0 = c := rfl
  have hdedup := Database.exists_dedup_iff ((Database.chosenRows t .always (some "topic")).map
    fun r => (column, r.cell "topic"))
  have hmem : ∀ r, r ∈ Database.chosenRows t .always (some "topic") ↔ r ∈ t.rows :=
    fun r => Database.mem_chosenRows.trans (and_iff_left rfl)
  simp only [List.mem_map, exists_exists_and_eq_and, hmem] at hdedup ⊢
  simp only [ResultRow.exists_text_iff, hcell, hdedup]

theorem attachmentsExpired_outcome (ht : db.table? messagesTable = some t)
    (hcurrent : t.IsCurrent) (now : Int64) :
    Store.Outcome StoreError.IsRead
      (∃ r ∈ t.rows, (Store.expiredCondition now).holds t r = true ∧ ¬ (r.cell "id").IsText)
      (Store.attachmentsExpired db now) := by
  have hknown : t.missing? ["id", "attachment_present", "attachment_expires",
      "attachment_expires", "attachment_expires"] = none := hcurrent.missing?_eq_none (by decide)
  have hcell (r : Row) := hcurrent.cell_project (r := r) ["id"] (i := 0) rfl
    (by decide : nameKey "id" ∈ Layout.releasedNames Layout.currentVersion)
  unfold Store.attachmentsExpired
  rw [Database.select_eq ht hknown]
  refine (readIds_outcome _).congr ?_
  simp only [Database.exists_chosen_iff, ResultRow.exists_text_iff, hcell]
  exact Iff.rfl

/-- The only fault of a sum is that it is out of range. -/
theorem Database.Total.result_eq_error {total : Database.Total} {fault : Fault}
    (h : total.result = .error fault) : fault = .integerOverflow := by
  unfold result at h
  split at h <;> cases h
  rfl

/-- A sum can be out of range.  If it is not, it is a size, or nothing, or damaged. -/
theorem attachmentsSize_outcome (ht : db.table? messagesTable = some t)
    (hcurrent : t.IsCurrent) (owner : String) (now : Int64) :
    (Store.attachmentsSize db owner now = .error (.database .integerOverflow) ∧
        Store.chargedTotal t owner now = .error .integerOverflow) ∨
      Store.Outcome StoreError.IsDecode (∃ total, Store.chargedTotal t owner now = .ok total ∧
        total ≠ .null ∧ ¬ total.IsSize) (Store.attachmentsSize db owner now) := by
  rw [attachmentsSize_eq_total ht hcurrent]
  cases htotal : Store.chargedTotal t owner now with
  | error fault =>
      obtain rfl := Database.Total.result_eq_error htotal
      exact .inl ⟨rfl, rfl⟩
  | ok total =>
      refine .inr ?_
      show Store.Outcome _ _ (Store.readTotal total)
      cases total with
      | null => exact .answer _ (by simp)
      | integer n =>
          rw [Store.readTotal]
          split
          · rename_i hnegative
            refine .failure _ ⟨_, rfl, Cell.integer_ne_null n, ?_⟩ ⟨_, rfl⟩
            rintro ⟨m, hm, hnonneg⟩
            obtain rfl := Cell.integer.inj hm
            exact absurd hnegative (Int64.not_lt.mpr hnonneg)
          · rename_i hnonneg
            refine .answer _ ?_
            rintro ⟨total, htotal, -, hsize⟩
            obtain rfl := Except.ok.inj htotal
            exact hsize ⟨n, rfl, Int64.not_lt.mp hnonneg⟩
      | real x | text b | blob b =>
          refine .failure _ ⟨_, rfl, ?_, ?_⟩ ⟨_, rfl⟩
          · intro hnull
            cases hnull
          · rintro ⟨n, hn, -⟩
            cases hn

/-- The kind of error that damage makes a call fail with. -/
def Store.Call.damageKind : Store.Call → StoreError → Prop
  | .expired _ => StoreError.IsRead
  | _ => StoreError.IsDecode

theorem Store.Call.damageKind_iff {call : Store.Call} {e : StoreError} (h : call.damageKind e) :
    (e.IsDecode ↔ ∀ now, call ≠ .expired now) ∧ (e.IsRead ↔ ∃ now, call = .expired now) := by
  have hnot : e.IsDecode → ¬ e.IsRead := by
    rintro ⟨_, rfl⟩ ⟨_, he⟩
    cases he
  cases call with
  | expired now =>
      have hread : e.IsRead := h
      refine ⟨iff_of_false (fun hdecode => hnot hdecode hread) ?_, iff_of_true hread ⟨now, rfl⟩⟩
      exact fun hnever => hnever now rfl
  | _ =>
      have hdecode : e.IsDecode := h
      refine ⟨iff_of_true hdecode (fun _ hcall => nomatch hcall),
        iff_of_false (hnot hdecode) ?_⟩
      rintro ⟨now, hcall⟩
      cases hcall

/-- What comes of each call that reads. -/
theorem run_outcome (ht : db.table? messagesTable = some t) (hcurrent : t.IsCurrent)
    (call : Store.Call) (hread : call.writes = false) :
    (∃ owner now, call = .size owner now ∧
        Store.chargedTotal t owner now = .error .integerOverflow ∧
        (call.run db).1 = .error (.database .integerOverflow)) ∨
      Store.Outcome call.damageKind (Store.Damaged t call) (call.run db).1 := by
  cases call with
  | add m now | mark id | prune olderThan => cases hread
  | since topic bound scheduled =>
      refine .inr (Store.Outcome.map ?_ _)
      unfold Store.messagesSince
      cases hbound : bound.timestamp with
      | none =>
          refine .answer [] ?_
          rintro ⟨time, htime, -⟩
          cases hbound.symm.trans htime
      | some time =>
          refine (messagesWhere_outcome ht hcurrent
            (Store.isKnown_sinceCondition topic time scheduled)).congr ?_
          constructor
          · rintro ⟨r, hr⟩
            exact ⟨time, hbound, r, hr⟩
          · rintro ⟨_, htime, r, hr⟩
            cases hbound.symm.trans htime
            exact ⟨r, hr⟩
  | due now =>
      exact .inr ((messagesWhere_outcome ht hcurrent (Store.isKnown_dueCondition now)).map _)
  | state id => exact .inr ((messageState_outcome ht hcurrent id).map _)
  | count topic =>
      have htopic : ∀ name ∈ ["topic"],
          nameKey name ∈ Layout.releasedNames Layout.currentVersion := by decide
      have hknown : t.missing? (Condition.compare "topic" .eq (.ofString topic)).columns = none :=
        hcurrent.missing?_eq_none htopic
      exact .inr ((count_outcome ht hknown).map _)
  | total => exact .inr ((count_outcome ht (hcurrent.missing?_eq_none (by decide))).map _)
  | topics => exact .inr ((topics_outcome ht hcurrent).map _)
  | expired now => exact .inr ((attachmentsExpired_outcome ht hcurrent now).map _)
  | size owner now =>
      rcases attachmentsSize_outcome ht hcurrent owner now with ⟨hsize, htotal⟩ | h
      · refine .inl ⟨owner, now, rfl, htotal, ?_⟩
        show (Store.attachmentsSize db owner now).map Store.Reply.size = _
        rw [hsize]
        rfl
      · exact .inr (h.map _)

end Readings

/-- Damage makes a call that reads fail.  It is reported as a value that cannot be decoded by
every call but the one for what expired, which reports a failure of the database.  Without
damage a call that reads is answered, unless it is a sum out of range. -/
theorem run_of_damaged {db : Database} {t : Table} (ht : db.table? messagesTable = some t)
    (hcurrent : t.IsCurrent) (call : Store.Call) (hread : call.writes = false) :
    (Store.Damaged t call → ∃ e, (call.run db).1 = .error e ∧
        (e.IsDecode ↔ ∀ now, call ≠ .expired now) ∧ (e.IsRead ↔ ∃ now, call = .expired now)) ∧
      (¬ Store.Damaged t call → ∀ e, (call.run db).1 = .error e → ∃ owner now,
        call = .size owner now ∧ Store.chargedTotal t owner now = .error .integerOverflow ∧
          e = .database .integerOverflow) := by
  have houtcome := run_outcome ht hcurrent call hread
  constructor
  · intro hdamaged
    rcases houtcome with ⟨owner, now, rfl, hoverflow, -⟩ | houtcome
    · obtain ⟨total, htotal, -⟩ := hdamaged
      cases htotal.symm.trans hoverflow
    · generalize (call.run db).1 = answer at houtcome ⊢
      cases houtcome with
      | answer reply hsound => exact absurd hdamaged hsound
      | failure e _ hkind => exact ⟨e, rfl, Store.Call.damageKind_iff hkind⟩
  · intro hsound e he
    rcases houtcome with ⟨owner, now, rfl, hoverflow, hrun⟩ | houtcome
    · exact ⟨owner, now, rfl, hoverflow, Except.error.inj (he.symm.trans hrun)⟩
    · rw [he] at houtcome
      cases houtcome with
      | failure _ hdamaged => exact absurd hdamaged hsound

/-- A message without an id, with an attachment that expired. -/
def namelessCells : List (String × Cell) :=
  [("id", .null), ("time", .integer 5), ("topic", .ofString "t"), ("message", .ofString ""),
    ("title", .ofString ""), ("priority", .integer 0), ("tags", .ofString ""),
    ("click", .ofString ""), ("attachment_name", .ofString "n"), ("attachment_type", .ofString ""),
    ("attachment_size", .integer 7), ("attachment_expires", .integer 5),
    ("attachment_url", .ofString "u"), ("attachment_owner", .ofString "o"),
    ("encoding", .ofString ""), ("published", .ofBool true), ("attachment_present", .ofBool true)]

def namelessRow : Row := { id := 1, cells := namelessCells }

/-- It can be put into a new store. -/
theorem exists_nameless : ∃ db t,
    transaction .granted [.insert messagesTable namelessCells]
        (ensureCurrent .granted .empty).database = .ok db ∧
      db.table? messagesTable = some t ∧ t.IsCurrent ∧ t.rows = [namelessRow] :=
  ⟨_, _, rfl, rfl, List.Perm.refl _, rfl⟩

theorem not_isText_namelessRow : ¬ (namelessRow.cell "id").IsText := by
  rintro ⟨s, hs⟩
  cases hs

/-- A poll reports that it cannot be decoded. -/
theorem run_of_damaged_nameless : ∃ db t,
    transaction .granted [.insert messagesTable namelessCells]
        (ensureCurrent .granted .empty).database = .ok db ∧
      db.table? messagesTable = some t ∧ t.IsCurrent ∧
      Store.Damaged t (.since "t" .all true) ∧
      ∃ e, ((Store.Call.since "t" .all true).run db).1 = .error e ∧ e.IsDecode := by
  obtain ⟨db, t, hdb, ht, hcurrent, hrows⟩ := exists_nameless
  have hholds : (Store.sinceCondition "t" 0 true).holds t namelessRow = true := by
    have htopic := hcurrent.holds_text (r := namelessRow) (by decide : Layout.IsText "topic") .eq "t"
    have htime := hcurrent.holds_integer (r := namelessRow) (by decide : Layout.IsInteger "time")
      .ge 0
    simp only [Store.sinceCondition, if_true, Condition.holds.eq_3, htopic, htime]
    decide +kernel
  have hdamaged : Store.Damaged t (.since "t" .all true) := by
    refine ⟨0, rfl, namelessRow, by simp [hrows], hholds, ?_⟩
    exact fun h => not_isText_namelessRow (h.texts "id" List.mem_cons_self)
  obtain ⟨e, he, hdecode, -⟩ := (run_of_damaged ht hcurrent (.since "t" .all true) rfl).1 hdamaged
  refine ⟨db, t, hdb, ht, hcurrent, hdamaged, e, he, hdecode.mpr ?_⟩
  intro _ hcall
  cases hcall

/-- For what expired it is reported as a failure of the database. -/
theorem expired_nameless : ∃ db t,
    transaction .granted [.insert messagesTable namelessCells]
        (ensureCurrent .granted .empty).database = .ok db ∧
      db.table? messagesTable = some t ∧ t.IsCurrent ∧ Store.Damaged t (.expired 10) ∧
      ∃ fault, ((Store.Call.expired 10).run db).1 = .error (.database (.read fault)) := by
  obtain ⟨db, t, hdb, ht, hcurrent, hrows⟩ := exists_nameless
  have hholds : (Store.expiredCondition 10).holds t namelessRow = true := by
    have hinteger (name : String) (hname : Layout.IsInteger name) (op : Comparison) (n : Int64) :=
      hcurrent.holds_integer (r := namelessRow) hname op n
    simp only [Store.expiredCondition, Condition.holds.eq_3,
      hinteger "attachment_present" (by decide), hinteger "attachment_expires" (by decide)]
    decide +kernel
  have hdamaged : Store.Damaged t (.expired 10) :=
    ⟨namelessRow, by simp [hrows], hholds, not_isText_namelessRow⟩
  refine ⟨db, t, hdb, ht, hcurrent, hdamaged, ?_⟩
  have hexpired := (attachmentsExpired_outcome ht hcurrent 10).map Store.Reply.ids
  show ∃ fault, (Store.attachmentsExpired db 10).map Store.Reply.ids = _
  generalize (Store.attachmentsExpired db 10).map Store.Reply.ids = answer at hexpired ⊢
  cases hexpired with
  | answer _ hsound => exact absurd hdamaged hsound
  | failure e _ hkind =>
      obtain ⟨fault, rfl⟩ := hkind
      exact ⟨fault, rfl⟩

end MessageCache
