/-
# New stores that are none

A store is taken for a new one if no table is listed under the name of the messages, case
included.  What is then created is created under that name unless it is there, case not
included.  The two notions differ where a table goes by another spelling of the name:

    no table is reached by the name   ⟹   one is created, in the current layout and empty
    one is reached by it              ⟹   it stays as it is, whatever it is, and the store
                                           is recorded as a current one

`isFresh_iff_of_createdFresh` puts the two together: of a store that was reported as a new
one, the messages are those of a new store iff there were none before, or these.
-/
import MessageCache.Proofs.Schema.Outcome

namespace MessageCache

/-- The table of messages of a new store. -/
def newMessages : Table := { name := messagesTable, columns := Layout.current, rows := [] }

/-- The table that statements reach under the name of the messages has the columns of a new
store, and no row. -/
def Database.IsFresh (db : Database) : Prop :=
  ∃ t, db.table? messagesTable = some t ∧ t.columns = Layout.current ∧ t.rows = []

/-! ## Statements that do nothing where something is there -/

section Statements

variable {db : Database} {name : String} {columns : List Column} {changed : Option Database}

theorem createTableIfMissing_confined
    (h : (Statement.createTableIfMissing name columns).run db = .ok changed) :
    Database.Confined (nameKey name) db (changed.getD db) := by
  simp only [Statement.createTableIfMissing] at h
  split at h
  · cases h
    exact .refl _ db
  · obtain ⟨after, hcreate, rfl⟩ := map_eq_ok.mp h
    exact Database.createTable_confined hcreate

/-- A table that is there stays; otherwise there is a new one. -/
theorem table?_createTableIfMissing
    (h : (Statement.createTableIfMissing name columns).run db = .ok changed) :
    (changed.getD db).table? name =
      some ((db.table? name).getD { name, columns, rows := [] }) := by
  simp only [Statement.createTableIfMissing] at h
  cases ht : db.table? name with
  | some t =>
      rw [ht] at h
      cases h
      exact ht
  | none =>
      rw [ht] at h
      obtain ⟨after, hcreate, rfl⟩ := map_eq_ok.mp h
      exact Database.table?_createTable hcreate

/-- Indexes are beside the tables. -/
theorem table_createIndexIfMissing {table column : String}
    (h : (Statement.createIndexIfMissing name table column).run db = .ok changed) :
    (changed.getD db).table = db.table := by
  simp only [Statement.createIndexIfMissing] at h
  split at h
  · cases h
    rfl
  · obtain ⟨after, hcreate, rfl⟩ := map_eq_ok.mp h
    unfold Database.createIndex at hcreate
    repeat' split at hcreate
    all_goals cases hcreate
    rfl

end Statements

/-! ## What is created -/

section Creation

variable {access : WriteAccess} {db after : Database}

/-- A new store is a table of messages and then the record of its version. -/
theorem createFresh_eq_ok (h : transaction access createFresh db = .ok after) :
    ∃ mid, (∀ name, nameKey name ≠ nameKey messagesTable → mid.table? name = db.table? name) ∧
      mid.table? messagesTable = some ((db.table? messagesTable).getD newMessages) ∧
      transaction .granted (recordVersion Layout.currentVersion) mid = .ok after := by
  have hgranted := transaction_granted h
  rw [createFresh, transaction_append, bind_eq_ok] at hgranted
  obtain ⟨mid, hmid, hrecord⟩ := hgranted
  rw [transaction_cons, bind_eq_ok] at hmid
  obtain ⟨created, hcreated, hindexed⟩ := hmid
  rw [transaction_cons, bind_eq_ok] at hindexed
  obtain ⟨indexed, hindexed, hmid⟩ := hindexed
  cases hmid
  have htables := table_createIndexIfMissing hindexed
  refine ⟨_, ?_, ?_, hrecord⟩
  · intro name hname
    rw [Database.table?, htables]
    exact (createTableIfMissing_confined hcreated).table?_of_ne hname
  · rw [Database.table?, htables]
    exact table?_createTableIfMissing hcreated

/-- The messages of a store that was created are those that were there. -/
theorem table?_createFresh (h : transaction access createFresh db = .ok after) :
    after.table? messagesTable = some ((db.table? messagesTable).getD newMessages) := by
  obtain ⟨mid, -, hmessages, hrecord⟩ := createFresh_eq_ok h
  rw [(recordVersion_confined hrecord).table?_of_ne messagesTable_ne_versionTable, hmessages]

/-- No table of messages is listed in a store that is taken for a new one. -/
theorem hasTableNamed_of_new (h : storedVersion db = .ok none) :
    db.hasTableNamed messagesTable = false := by
  unfold storedVersion at h
  cases hm : db.hasTableNamed messagesTable with
  | false => rfl
  | true =>
      simp only [hm, Bool.not_true, Bool.false_eq_true, if_false] at h
      split at h
      · cases h
      · split at h
        · cases h
        · cases h
        · split at h
          · cases h
          · obtain ⟨v, -, hv⟩ := map_eq_ok.mp h
            cases hv

theorem Ends.createdFresh {u : Upgrade} {v : Nat} (hends : Ends access db u)
    (h : .createdFresh v ∈ u.progress) :
    u.result = .ok Layout.currentVersion ∧ storedVersion db = .ok none ∧
      transaction access MessageCache.createFresh db = .ok u.database := by
  cases hends with
  | created hv hcreate hu => exact ⟨hu.result, hv, hu.database ▸ hcreate⟩
  | unread hv hu | newer hv hlt hu | uncreated hv hfault hu =>
      rw [hu.progress] at h
      cases h
  | climbed hv hclimbs hu | stopped hv hclimbs hs hfault hu =>
      rw [hu.progress, List.mem_append, List.mem_singleton] at h
      rcases h with h | h
      · exact absurd h (createdFresh_notMem_reported _ _ _)
      · cases h

/-- The messages of a store that was reported as a new one are those of a new store iff
there were none before, or these; a table that was there is left as it was. -/
theorem isFresh_iff_of_createdFresh {v : Nat}
    (h : .createdFresh v ∈ (ensureCurrent access db).progress) :
    (ensureCurrent access db).result = .ok Layout.currentVersion ∧
      ((ensureCurrent access db).database.IsFresh ↔
        db.table? messagesTable = none ∨ db.IsFresh) ∧
      ∀ t, db.table? messagesTable = some t → t.name ≠ messagesTable ∧
        (ensureCurrent access db).database.table? messagesTable = some t := by
  obtain ⟨hresult, hv, hcreate⟩ := (ensureCurrent_ends access db).createdFresh h
  have hafter := table?_createFresh hcreate
  refine ⟨hresult, ?_, ?_⟩
  · unfold Database.IsFresh
    rw [hafter]
    cases ht : db.table? messagesTable with
    | none => exact iff_of_true ⟨newMessages, rfl, rfl, rfl⟩ (.inl rfl)
    | some t => simp
  · intro t ht
    rw [hafter, ht]
    refine ⟨?_, rfl⟩
    intro hname
    have hnamed := Database.hasTableNamed_iff.mpr ⟨t, ht, hname⟩
    rw [hasTableNamed_of_new hv] at hnamed
    cases hnamed

end Creation

/-! ## A table under another spelling -/

/-- A store of version 0 with a message, whose table has a capital letter in its name. -/
def capitalTables : List Statement :=
  [.createTable "Messages" (Layout.released 0),
    .insert "Messages" [("id", .ofString "a"), ("time", .integer 5), ("topic", .ofString "t"),
      ("message", .ofString "b")]]

theorem isFresh_iff_of_createdFresh_capital :
    ∃ db, transaction .granted capitalTables .empty = .ok db ∧
      Progress.createdFresh 5 ∈ (ensureCurrent .granted db).progress ∧
      (ensureCurrent .granted db).result = .ok Layout.currentVersion ∧
      ¬ (ensureCurrent .granted db).database.IsFresh := by
  have hstore : ∃ db, transaction .granted capitalTables .empty = .ok db ∧
      Progress.createdFresh 5 ∈ (ensureCurrent .granted db).progress ∧
      ∃ t, db.table? messagesTable = some t ∧ t.rows ≠ [] :=
    ⟨_, rfl, List.mem_singleton.mpr rfl, _, rfl, List.cons_ne_nil _ _⟩
  obtain ⟨db, hdb, hfresh, t, ht, hrows⟩ := hstore
  obtain ⟨hresult, hiff, -⟩ := isFresh_iff_of_createdFresh hfresh
  refine ⟨db, hdb, hfresh, hresult, ?_⟩
  intro hafter
  rcases hiff.mp hafter with hnone | ⟨u, hu, -, hempty⟩
  · exact nomatch hnone.symm.trans ht
  · obtain rfl : t = u := Option.some.inj (ht.symm.trans hu)
    exact hrows hempty

/-- The store is reported as a new one and as current, and its messages still have the four
columns of version 0, and the message in them. -/
theorem not_isFresh_capital : ∃ db t, transaction .granted capitalTables .empty = .ok db ∧
    (ensureCurrent .granted db).result = .ok 5 ∧
    (ensureCurrent .granted db).progress = [.createdFresh 5] ∧
    (ensureCurrent .granted db).database.table? messagesTable = some t ∧
    t.columns.map (·.name) = ["id", "time", "topic", "message"] ∧ t.rows.length = 1 ∧
    ¬ (ensureCurrent .granted db).database.IsFresh := by
  refine ⟨_, _, rfl, rfl, rfl, rfl, rfl, rfl, ?_⟩
  rintro ⟨t, ht, -, hrows⟩
  cases ht
  cases hrows

end MessageCache
