/-
# What calls look at, and what they touch

A call looks at the table of messages and at nothing else, and what it leaves is the same
database but for the rows of that table.  It does to a database what it does to the table
alone (`Call.run_eq_alone`):

    call.run (.alone messagesTable t)  =  (answer, after)
    call.run db  =  (answer, db with the rows of after)      for every db with the table t

So it makes no difference to a call what else there is, in the database or in its file, and
a store in some layout stays in it.

If rows were changed, the page that they are on is among those that the call says it needs
(`Call.rows_mem_pages`).  So to write these pages is enough: a change that does not show on
them is none (`Call.run_of_not_differs`).
-/
import MessageCache.Proofs.Schema.Carry
import MessageCache.Proofs.Store.LifeCycle
import MessageCache.Proofs.Table.Edition

namespace MessageCache

/-! ## Statements on a table alone -/

namespace Database

/-- A database with one table. -/
def alone (name : String) (t : Table) : Database := empty.setTable name t

/-- The rows of the table of that name. -/
def rowsOf (name : String) (db : Database) : List Row := ((db.table? name).map (·.rows)).getD []

/-- The database with the rows that a table of that name has in another one. -/
def withRowsOf (db : Database) (name : String) (t : Table) (after : Database) : Database :=
  db.setTable name { t with rows := rowsOf name after }

variable {db after : Database} {table column : String} {t : Table} {cond : Condition}

theorem table?_alone (name : String) (t : Table) : (alone name t).table? name = some t :=
  table?_setTable_self empty name t

@[simp] theorem rowsOf_setTable (name : String) (db : Database) (t : Table) :
    rowsOf name (db.setTable name t) = t.rows := by
  simp [rowsOf]

@[simp] theorem withRowsOf_setTable (db other : Database) (name : String) (t u : Table) :
    db.withRowsOf name t (other.setTable name u) = db.setTable name { t with rows := u.rows } := by
  rw [withRowsOf, rowsOf_setTable]

theorem withRowsOf_alone (ht : db.table? table = some t) :
    db.withRowsOf table t (alone table t) = db := by
  rw [alone, withRowsOf_setTable]
  exact setTable_self ht

theorem SameTables.withRowsOf {other : Database} (h : db.SameTables other) (name : String)
    (t : Table) (after : Database) :
    (db.withRowsOf name t after).SameTables (other.withRowsOf name t after) := h.setTable name _

theorem insert_eq_alone (ht : db.table? table = some t) (values : List (String × Cell))
    (onConflict : OnConflict) :
    db.insert table values onConflict =
      ((alone table t).insert table values onConflict).map (db.withRowsOf table t) := by
  unfold insert insertRow
  simp only [find_eq_ok.mpr ht, find_eq_ok.mpr (table?_alone table t), bind, Except.bind, throw,
    throwThe, MonadExceptOf.throw]
  repeat' split
  all_goals simp only [Except.map, withRowsOf_setTable]

theorem update_eq_alone (ht : db.table? table = some t) (value : Cell) (cond : Condition) :
    db.update table column value cond =
      ((alone table t).update table column value cond).map fun x =>
        (x.1, db.withRowsOf table t x.2) := by
  unfold update renumber
  simp only [find_eq_ok.mpr ht, find_eq_ok.mpr (table?_alone table t), bind, Except.bind, pure,
    Except.pure, throw, throwThe, MonadExceptOf.throw]
  repeat' split
  all_goals simp only [Except.map, withRowsOf_setTable, withRowsOf_alone ht]

theorem delete_eq_alone (ht : db.table? table = some t) (cond : Condition) :
    db.delete table cond =
      ((alone table t).delete table cond).map fun x => (x.1, db.withRowsOf table t x.2) := by
  unfold delete
  simp only [find_eq_ok.mpr ht, find_eq_ok.mpr (table?_alone table t), bind, Except.bind, pure,
    Except.pure]
  split
  all_goals simp only [Except.map, withRowsOf_setTable]

theorem select_eq_alone (ht : db.table? table = some t) (columns : List String) (cond : Condition)
    (orderBy : Option String) :
    db.select table columns cond orderBy = (alone table t).select table columns cond orderBy := by
  unfold select
  rw [find_eq_ok.mpr ht, find_eq_ok.mpr (table?_alone table t)]

theorem count_eq_alone (ht : db.table? table = some t) (cond : Condition) :
    db.count table cond = (alone table t).count table cond := by
  unfold count
  rw [find_eq_ok.mpr ht, find_eq_ok.mpr (table?_alone table t)]

/-! ## How many rows a change is about -/

theorem any_of_countP {rows : List Row} {p : Row → Bool} (h : rows.countP p ≠ 0) :
    rows.any p = true := by
  obtain ⟨r, hr, hp⟩ := List.countP_pos_iff.mp (Nat.pos_of_ne_zero h)
  exact List.any_eq_true.mpr ⟨r, hr, hp⟩

/-- An update says how many rows its condition means, and if there is none it leaves the
database as it is. -/
theorem update_count {value : Cell} {n : Nat}
    (h : db.update table column value cond = .ok (n, after)) :
    ∃ t, db.table? table = some t ∧ (n ≠ 0 → t.rows.any (cond.holds t) = true) ∧
      (n = 0 → after = db) := by
  unfold update at h
  simp only [bind_eq_ok, find_eq_ok] at h
  obtain ⟨-, -, t, ht, -, -, h⟩ := h
  refine ⟨t, ht, ?_⟩
  cases hc : t.column? column with
  | none =>
      simp only [hc, renumber] at h
      split at h
      · cases h
        exact ⟨fun hn => absurd rfl hn, fun _ => rfl⟩
      · rename_i row others hrows
        obtain ⟨id, -, h⟩ := bind_eq_ok.mp h
        split at h
        · cases h
        · obtain ⟨rfl, -⟩ := Prod.mk.inj (Except.ok.inj h)
          refine ⟨fun _ => ?_, fun hn => absurd hn Nat.one_ne_zero⟩
          have hmem : row ∈ t.rows.filter (cond.holds t) := hrows ▸ List.mem_cons_self
          obtain ⟨hrow, hholds⟩ := List.mem_filter.mp hmem
          exact List.any_eq_true.mpr ⟨row, hrow, hholds⟩
  | some c =>
      simp only [hc] at h
      split at h
      · cases h
      · split at h
        · cases h
        · obtain ⟨rfl, rfl⟩ := Prod.mk.inj (Except.ok.inj h)
          constructor
          · exact any_of_countP
          · intro hn
            rw [List.countP_eq_zero] at hn
            rw [List.map_congr_left fun r hr => if_neg (hn r hr), List.map_id']
            exact setTable_self ht

/-- Other rows make another page of rows. -/
theorem rows_eq_of_not_differs {rows : List Row} (ht : db.table? table = some t)
    (h : db.differs (db.setTable table { t with rows }) (.part (nameKey table) .rows) = false) :
    rows = t.rows := by
  have htable : db.table (nameKey table) = some t := ht
  simp only [differs, htable, table_setTable, if_true, valuesIn, Bool.or_eq_false_iff] at h
  exact (not_not.mp (of_decide_eq_false h.2)).symm

theorem delete_count {n : Nat} (h : db.delete table cond = .ok (n, after)) :
    ∃ t, db.table? table = some t ∧ (n ≠ 0 → t.rows.any (cond.holds t) = true) ∧
      (n = 0 → after = db) := by
  unfold delete at h
  simp only [bind_eq_ok, find_eq_ok] at h
  obtain ⟨t, ht, -, -, h⟩ := h
  obtain ⟨rfl, rfl⟩ := Prod.mk.inj (Except.ok.inj h)
  refine ⟨t, ht, any_of_countP, ?_⟩
  intro hn
  rw [List.countP_eq_zero] at hn
  have hrows : (t.rows.filter fun r => !cond.holds t r) = t.rows :=
    List.filter_eq_self.mpr fun r hr => by simp [hn r hr]
  rw [hrows]
  exact setTable_self ht

end Database

/-! ## Calls -/

namespace Store

variable {db after : Database} {t : Table} {call : Call}

theorem messagesWhere_eq_alone (ht : db.table? messagesTable = some t) (cond : Condition) :
    messagesWhere db cond = messagesWhere (.alone messagesTable t) cond := by
  unfold messagesWhere
  rw [Database.select_eq_alone ht]

theorem reading_eq_alone (ht : db.table? messagesTable = some t) (r : Except StoreError Reply) :
    reading db r = ((reading (.alone messagesTable t) r).1,
      db.withRowsOf messagesTable t (reading (.alone messagesTable t) r).2) := by
  unfold reading
  rw [Database.withRowsOf_alone ht]

theorem writing_eq_alone (ht : db.table? messagesTable = some t)
    (r : Except StoreError (Reply × Database)) :
    writing db (r.map fun x => (x.1, db.withRowsOf messagesTable t x.2)) =
      ((writing (.alone messagesTable t) r).1,
        db.withRowsOf messagesTable t (writing (.alone messagesTable t) r).2) := by
  cases r with
  | error e =>
      show (Except.error e, db) = (Except.error e, db.withRowsOf messagesTable t (.alone _ t))
      rw [Database.withRowsOf_alone ht]
  | ok _ => rfl

theorem add_eq_alone (ht : db.table? messagesTable = some t) (m : Message) (now : Int64) :
    Store.add db m now =
      (Store.add (.alone messagesTable t) m now).map (db.withRowsOf messagesTable t) := by
  unfold Store.add
  split
  · rfl
  · cases messageCells m (.atInsert m.time now) with
    | error e => rfl
    | ok cells =>
        simp only [ok_bind]
        rw [Database.insert_eq_alone ht]
        cases (Database.alone messagesTable t).insert messagesTable cells .refuse <;> rfl

/-- A call does to a database what it does to the table of messages alone. -/
theorem Call.run_eq_alone (ht : db.table? messagesTable = some t) (call : Call) :
    call.run db = ((call.run (.alone messagesTable t)).1,
      db.withRowsOf messagesTable t (call.run (.alone messagesTable t)).2) := by
  cases call with
  | add m now =>
      show writing db ((Store.add db m now).map fun db => (.stored, db)) = _
      rw [add_eq_alone ht]
      refine Eq.trans ?_ (writing_eq_alone ht _)
      cases Store.add (.alone messagesTable t) m now <;> rfl
  | mark id =>
      show writing db ((markPublished db id).map _) = _
      unfold markPublished
      rw [Database.update_eq_alone ht]
      refine Eq.trans ?_ (writing_eq_alone ht _)
      unfold markPublished
      cases (Database.alone messagesTable t).update messagesTable "published" (.integer 1)
        (idCondition id) <;> rfl
  | prune olderThan =>
      show writing db ((Store.prune db olderThan).map _) = _
      unfold Store.prune
      rw [Database.delete_eq_alone ht]
      refine Eq.trans ?_ (writing_eq_alone ht _)
      unfold Store.prune
      cases (Database.alone messagesTable t).delete messagesTable (pruneCondition olderThan) <;> rfl
  | since topic bound scheduled =>
      show reading db ((messagesSince db topic bound scheduled).map .messages) = _
      unfold messagesSince
      simp only [messagesWhere_eq_alone ht]
      exact reading_eq_alone ht _
  | due now =>
      show reading db ((messagesDue db now).map .messages) = _
      unfold messagesDue
      rw [messagesWhere_eq_alone ht]
      exact reading_eq_alone ht _
  | state id =>
      show reading db ((messageState db id).map .state) = _
      unfold messageState
      rw [Database.select_eq_alone ht]
      exact reading_eq_alone ht _
  | count topic =>
      show reading db ((messageCount db topic).map .count) = _
      unfold messageCount
      rw [Database.count_eq_alone ht]
      exact reading_eq_alone ht _
  | total =>
      show reading db ((totalMessageCount db).map .count) = _
      unfold totalMessageCount
      rw [Database.count_eq_alone ht]
      exact reading_eq_alone ht _
  | topics =>
      show reading db ((Store.topics db).map .topics) = _
      unfold Store.topics Database.distinct
      rw [Database.select_eq_alone ht]
      exact reading_eq_alone ht _
  | size owner now =>
      show reading db ((attachmentsSize db owner now).map .size) = _
      unfold attachmentsSize Database.sum
      rw [Database.select_eq_alone ht]
      exact reading_eq_alone ht _
  | expired now =>
      show reading db ((attachmentsExpired db now).map .ids) = _
      unfold attachmentsExpired
      rw [Database.select_eq_alone ht]
      exact reading_eq_alone ht _

/-- It makes no difference to a call what else there is. -/
theorem Call.run_sameTables {other : Database} (h : db.SameTables other)
    (ht : db.table? messagesTable = some t) (call : Call) :
    (call.run other).1 = (call.run db).1 ∧ (call.run db).2.SameTables (call.run other).2 := by
  have hother : other.table? messagesTable = some t := (h.table?_eq _).trans ht
  rw [run_eq_alone ht, run_eq_alone hother]
  exact ⟨rfl, h.withRowsOf _ _ _⟩

/-- The version does not depend on the rows of messages. -/
theorem storedVersion_of_confined (h : Database.Confined (nameKey messagesTable) db after)
    (ht : db.table? messagesTable = some t) : storedVersion after = storedVersion db := by
  have hother := messagesTable_ne_versionTable.symm
  unfold storedVersion Database.select Database.find
  rw [h.hasTableNamed_of_isSome (by rw [ht]; rfl), h.hasTableNamed_of_ne hother,
    h.table?_of_ne hother]

/-- A store in some layout stays in it. -/
theorem Call.inLayout {v : Nat} (h : InLayout v db t) (call : Call) :
    ∃ u, InLayout v (call.run db).2 u := by
  rw [run_eq_alone h.messages]
  have hconfined : Database.Confined (nameKey messagesTable) db
      (db.withRowsOf messagesTable t (call.run (.alone messagesTable t)).2) :=
    .setTable h.messages rfl
  have hrecord := hconfined.table?_of_ne messagesTable_ne_versionTable.symm
  refine ⟨_, Database.table?_setTable_self db _ _, h.layout, ?_, ?_, ?_⟩
  · rw [storedVersion_of_confined hconfined h.messages]
    exact h.version
  · rw [hrecord]
    exact h.record
  · rw [hrecord, Database.hasIndex, hconfined.indexes]
    exact h.room

/-! ## Changes -/

theorem mapError_eq_ok {ε ε' α : Type} {x : Except ε α} {f : ε → ε'} {a : α} :
    x.mapError f = .ok a ↔ x = .ok a := by
  cases x with
  | error e => exact iff_of_false nofun nofun
  | ok b => simp [Except.mapError]

theorem writing_eq_ok {r : Except StoreError (Reply × Database)} {reply : Reply}
    (h : (writing db r).1 = .ok reply) : r = .ok (reply, (writing db r).2) := by
  cases r with
  | error e => cases h
  | ok x =>
      cases h
      rfl

namespace Call

variable {reply : Reply}

theorem add_eq_ok {m : Message} {now : Int64} (h : ((add m now).run db).1 = .ok reply) :
    reply = .stored ∧ ∃ cells, messageCells m (.atInsert m.time now) = .ok cells ∧
      db.insert messagesTable cells .refuse = .ok ((add m now).run db).2 := by
  obtain ⟨after, hadd, hafter⟩ := map_eq_ok.mp (writing_eq_ok h)
  obtain ⟨rfl, hdb⟩ := Prod.mk.inj hafter
  unfold Store.add at hadd
  split at hadd
  · cases hadd
  · obtain ⟨cells, hcells, hinsert⟩ := bind_eq_ok.mp hadd
    exact ⟨rfl, cells, hcells, hdb ▸ mapError_eq_ok.mp hinsert⟩

theorem mark_eq_ok {id : String} (h : ((mark id).run db).1 = .ok reply) :
    ∃ n, reply = .marked (n ≠ 0) ∧
      db.update messagesTable "published" (.integer 1) (idCondition id) =
        .ok (n, ((mark id).run db).2) := by
  obtain ⟨⟨found, after⟩, hmark, hafter⟩ := map_eq_ok.mp (writing_eq_ok h)
  obtain ⟨rfl, hdb⟩ := Prod.mk.inj hafter
  obtain ⟨⟨n, changed⟩, hupdate, hfound⟩ := bind_eq_ok.mp hmark
  obtain ⟨rfl, rfl⟩ := Prod.mk.inj (Except.ok.inj hfound)
  exact ⟨n, rfl, hdb ▸ mapError_eq_ok.mp hupdate⟩

theorem prune_eq_ok {olderThan : Int64} (h : ((prune olderThan).run db).1 = .ok reply) :
    ∃ n, reply = .pruned n ∧ db.delete messagesTable (pruneCondition olderThan) =
      .ok (n, ((prune olderThan).run db).2) := by
  obtain ⟨⟨n, after⟩, hprune, hafter⟩ := map_eq_ok.mp (writing_eq_ok h)
  obtain ⟨rfl, hdb⟩ := Prod.mk.inj hafter
  exact ⟨n, rfl, hdb ▸ mapError_eq_ok.mp hprune⟩

/-- A call that does not tell of a change has left the database as it was. -/
theorem run_of_unchanged (h : ∀ reply, (call.run db).1 = .ok reply → reply.isChange = false) :
    (call.run db).2 = db := by
  cases hanswer : (call.run db).1 with
  | error e => exact run_of_error hanswer
  | ok reply =>
      have hreply := h reply hanswer
      cases call with
      | add m now =>
          obtain ⟨rfl, -⟩ := add_eq_ok hanswer
          cases hreply
      | mark id =>
          obtain ⟨n, rfl, hupdate⟩ := mark_eq_ok hanswer
          obtain ⟨-, -, -, hzero⟩ := Database.update_count hupdate
          exact hzero (by simpa [Reply.isChange] using hreply)
      | prune olderThan =>
          obtain ⟨n, rfl, hdelete⟩ := prune_eq_ok hanswer
          obtain ⟨-, -, -, hzero⟩ := Database.delete_count hdelete
          exact hzero (by simpa [Reply.isChange] using hreply)
      | since _ _ _ | due _ | state _ | count _ | total | topics | size _ _ | expired _ => rfl

/-- Only what writes can tell of a change. -/
theorem writes_of_isChange (h : (call.run db).1 = .ok reply) (hchange : reply.isChange = true) :
    call.writes = true := by
  cases call with
  | add _ _ | mark _ | prune _ => rfl
  | since _ _ _ | due _ | state _ | count _ | total | topics | size _ _ | expired _ =>
      obtain ⟨_, -, rfl⟩ := map_eq_ok.mp h
      cases hchange

/-- The rows are looked at if a search finds some of them. -/
theorem rows_mem_searchPages {column : String} {value : Cell}
    (ht : db.table? messagesTable = some t) (hname : t.name = messagesTable)
    (hany : t.rows.any ((Condition.compare column .eq value).holds t) = true) :
    .part (nameKey messagesTable) .rows ∈
      db.searchPages { table := messagesTable, aim := .having column value } := by
  obtain ⟨r, hr, hholds⟩ := List.any_eq_true.mp hany
  have hmem : r ∈ t.rows.filter fun r => (Condition.compare column .eq value).holds t r :=
    List.mem_filter.mpr ⟨hr, hholds⟩
  unfold Database.searchPages Search.hits? Database.pagesOf
  simp only [ht, hname]
  cases hpart : Search.part db t { table := messagesTable, aim := .having column value } with
  | rows => simp
  | keys | index key =>
      cases hhits : t.rows.filter fun r => (Condition.compare column .eq value).holds t r with
      | nil =>
          rw [hhits] at hmem
          cases hmem
      | cons hit rest => simp [hhits]

/-- A change is one of rows, and these are among what the call needs. -/
theorem rows_mem_pages (ht : db.table? messagesTable = some t) (hname : t.name = messagesTable)
    (h : (call.run db).1 = .ok reply) (hchange : reply.isChange = true) :
    .part (nameKey messagesTable) .rows ∈ call.pages db := by
  cases call with
  | add m now =>
      obtain ⟨-, cells, hcells, hinsert⟩ := add_eq_ok h
      unfold pages Database.insertPages
      simp [hcells, hinsert, ht, hname, Database.pagesOf]
  | mark id =>
      obtain ⟨n, rfl, hupdate⟩ := mark_eq_ok h
      obtain ⟨u, hu, hany, -⟩ := Database.update_count hupdate
      obtain rfl : t = u := Option.some.inj (ht.symm.trans hu)
      show _ ∈ db.updatePages messagesTable "published" (idCondition id)
      unfold Database.updatePages
      rw [ht]
      refine List.mem_append_left _ (rows_mem_searchPages ht hname (hany ?_))
      simpa [Reply.isChange] using hchange
  | prune olderThan =>
      obtain ⟨n, rfl, hdelete⟩ := prune_eq_ok h
      obtain ⟨u, hu, hany, -⟩ := Database.delete_count hdelete
      obtain rfl : t = u := Option.some.inj (ht.symm.trans hu)
      have hn : n ≠ 0 := by simpa [Reply.isChange] using hchange
      show _ ∈ db.deletePages messagesTable (pruneCondition olderThan)
      unfold Database.deletePages
      rw [ht]
      refine List.mem_append_right _ ?_
      simp [hany hn, hname, Database.pagesOf, Database.parts]
  | since _ _ _ | due _ | state _ | count _ | total | topics | size _ _ | expired _ =>
      cases writes_of_isChange h hchange

/-- What a call leaves is a change if it tells of one. -/
theorem changed_effect (call : Call) (db : Database) : (call.effect .granted db).changed =
    if (call.run db).1.toOption.any Reply.isChange then some (call.run db).2 else none := by
  unfold effect runWith
  simp only [WriteAccess.pass_granted]
  cases hanswer : (call.run db).1 with
  | error e => cases call.writes <;> rfl
  | ok reply =>
      cases hwrites : call.writes with
      | true => rfl
      | false =>
          have hunchanged : reply.isChange = false :=
            Bool.eq_false_iff.mpr fun hchange => by
              rw [writes_of_isChange hanswer hchange] at hwrites
              cases hwrites
          simp [hunchanged, Except.toOption]

theorem changed_getD (call : Call) (db : Database) :
    (call.effect .granted db).changed.getD db = (call.run db).2 := by
  rw [changed_effect]
  split
  · rfl
  · rename_i hunchanged
    refine (run_of_unchanged ?_).symm
    intro reply hreply
    change (call.run db).1 = _ at hreply
    rw [hreply] at hunchanged
    exact Bool.eq_false_iff.mpr hunchanged

/-- A change that shows on no page that the call needs is none. -/
theorem run_of_not_differs (ht : db.table? messagesTable = some t) (hname : t.name = messagesTable)
    (h : (call.run db).1 = .ok reply) (hchange : reply.isChange = true)
    (hpages : ∀ page ∈ call.pages db, db.differs (call.run db).2 page = false) :
    (call.run db).2 = db := by
  have hsame := hpages _ (rows_mem_pages ht hname h hchange)
  rw [run_eq_alone ht] at hsame ⊢
  have hrows := Database.rows_eq_of_not_differs ht hsame
  show db.setTable messagesTable { t with rows := _ } = db
  rw [hrows]
  exact Database.setTable_self ht

end Call

end Store

end MessageCache
