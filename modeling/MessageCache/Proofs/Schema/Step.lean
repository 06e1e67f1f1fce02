/-
# Steps: what one of them keeps and what it records

A step is its changes and then the record of its target, and both must succeed
(`apply_eq_ok`).  The changes touch no table but that of messages, and the record none
but the version table; so a store that can be resumed stays one, and reads the target
afterwards:

    Resumable db,  s.apply db = ok after   ⟹   Resumable after,  storedVersion after = target

`Resumable` asks for what the reading of a version depends on.  It does not ask for a
version table; the step from version 0 may be what creates it.
-/
import MessageCache.Proofs.Schema.Record
import MessageCache.Schema.Upgrade

namespace MessageCache

/-! ## The list of steps -/

namespace Step

/-- The steps stand at their origins. -/
theorem leadingFrom?_eq (v : Nat) : leadingFrom? v = all[v]? := by
  match v with
  | 0 | 1 | 2 | 3 | 4 => rfl
  | n + 5 =>
      have hall : ∀ s ∈ all, s.origin < 5 := by decide
      rw [leadingFrom?, List.getElem?_eq_none (by exact Nat.le_add_left 5 n), List.find?_eq_none]
      intro s hs
      have := hall s hs
      simp only [decide_eq_true_eq]
      omega

variable {s : Step} {v : Nat}

theorem origin_of_leadingFrom? (h : leadingFrom? v = some s) : s.origin = v := by
  simpa using List.find?_some h

theorem target_of_leadingFrom? (h : leadingFrom? v = some s) : s.target = v + 1 := by
  rw [target, origin_of_leadingFrom? h]

theorem mem_of_leadingFrom? (h : leadingFrom? v = some s) : s ∈ all := List.mem_of_find?_eq_some h

theorem exists_leadingFrom? (h : v < Layout.currentVersion) : ∃ s, leadingFrom? v = some s := by
  rw [leadingFrom?_eq]
  exact ⟨_, List.getElem?_eq_getElem (show v < all.length from h)⟩

theorem lt_of_leadingFrom? (h : leadingFrom? v = some s) : v < Layout.currentVersion := by
  rw [leadingFrom?_eq] at h
  exact (List.getElem?_eq_some_iff.mp h).1

end Step

/-! ## One step -/

section Confinement

variable {s : Step} {db mid after : Database}

theorem Change.confined {c : Change} (h : c.statement.run db = .ok (some after)) :
    Database.Confined (nameKey messagesTable) db after := by
  cases c with
  | addColumn c =>
      obtain ⟨_, hdb, hsome⟩ := map_eq_ok.mp h
      cases hsome
      exact Database.addColumn_confined hdb
  | assign column value cond =>
      obtain ⟨_, hdb, hsome⟩ := map_eq_ok.mp h
      cases hsome
      obtain ⟨⟨n, _⟩, hupdate, rfl⟩ := map_eq_ok.mp hdb
      exact Database.update_confined hupdate

theorem Step.run_confined (h : s.run .granted db = .ok after) :
    Database.Confined (nameKey messagesTable) db after := by
  refine transaction_confined ?_ h
  intro statement hmem db after hrun
  obtain ⟨c, -, rfl⟩ := List.mem_map.mp hmem
  exact Change.confined hrun

/-- A step is its changes and then the record of the version that it leads to. -/
theorem Step.apply_eq_ok : s.apply .granted db = .ok after ↔
    ∃ mid, s.run .granted db = .ok mid ∧
      transaction .granted (recordVersion s.target) mid = .ok after := by
  show transaction .granted (s.statements ++ recordVersion s.target) db = _ ↔ _
  rw [transaction_append, bind_eq_ok]
  rfl

theorem Step.apply_granted {access : WriteAccess} (h : s.apply access db = .ok after) :
    s.apply .granted db = .ok after := transaction_granted h

end Confinement

/-! ## No step twice -/

section Once

variable {s : Step} {db mid after : Database} {key : String}

/-- The messages have a column with this key. -/
def HasColumn (key : String) (db : Database) : Prop :=
  ∃ t, db.table? messagesTable = some t ∧ key ∈ t.columns.map Column.key

theorem HasColumn.change {c : Change} (h : HasColumn key db)
    (hrun : c.statement.run db = .ok (some after)) : HasColumn key after := by
  obtain ⟨t, ht, hkey⟩ := h
  cases c with
  | addColumn c =>
      obtain ⟨_, hdb, hsome⟩ := map_eq_ok.mp hrun
      cases hsome
      obtain ⟨u, hu, -, -, rfl⟩ := Database.addColumn_eq_ok.mp hdb
      obtain rfl : t = u := Option.some.inj (ht.symm.trans hu)
      refine ⟨t.withColumn c, Database.table?_setTable_self db messagesTable _, ?_⟩
      rw [Table.columns_withColumn, List.map_append]
      exact List.mem_append_left _ hkey
  | assign column value cond =>
      obtain ⟨_, hdb, hsome⟩ := map_eq_ok.mp hrun
      cases hsome
      obtain ⟨⟨n, _⟩, hupdate, rfl⟩ := map_eq_ok.mp hdb
      obtain ⟨u, rows, hu, rfl⟩ := Database.exists_rows_of_update hupdate
      obtain rfl : t = u := Option.some.inj (ht.symm.trans hu)
      exact ⟨_, Database.table?_setTable_self db messagesTable _, hkey⟩

/-- Columns are never taken away again. -/
theorem HasColumn.changes {changes : List Change} (h : HasColumn key db)
    (hrun : transaction .granted (changes.map Change.statement) db = .ok after) :
    HasColumn key after := by
  refine transaction_keeps (P := HasColumn key) ?_ h hrun
  intro statement hmem mid later hmid hlater
  obtain ⟨change, -, rfl⟩ := List.mem_map.mp hmem
  exact hmid.change hlater

theorem HasColumn.recordVersion {version : Nat} (h : HasColumn key db)
    (hrecord : transaction .granted (recordVersion version) db = .ok after) :
    HasColumn key after := by
  obtain ⟨t, ht, hkey⟩ := h
  refine ⟨t, ?_, hkey⟩
  rw [(recordVersion_confined hrecord).table?_of_ne (by decide), ht]

theorem HasColumn.apply {access : WriteAccess} (h : HasColumn key db)
    (hs : s.apply access db = .ok after) : HasColumn key after := by
  obtain ⟨mid, hrun, hrecord⟩ := Step.apply_eq_ok.mp (Step.apply_granted hs)
  exact (h.changes hrun).recordVersion hrecord

/-- Every step begins with a new column. -/
theorem Step.exists_addColumn (hs : s ∈ Step.all) :
    ∃ c rest, s.changes = Change.addColumn c :: rest := by
  simp only [Step.all, List.mem_cons, List.not_mem_nil, or_false] at hs
  rcases hs with rfl | rfl | rfl | rfl | rfl <;> exact ⟨_, _, rfl⟩

section NewColumn

variable {access : WriteAccess} {c : Column} {rest : List Change}

/-- The new column was not there, and then the other changes follow. -/
theorem Step.run_addColumn_eq_ok (hs : s.changes = Change.addColumn c :: rest)
    (hrun : s.run .granted db = .ok after) :
    ∃ t, db.table? messagesTable = some t ∧ t.column? c.name = none ∧
      transaction .granted (rest.map Change.statement)
        (db.setTable messagesTable (t.withColumn c)).altered = .ok after := by
  rw [run, statements, hs, List.map_cons, transaction_cons, bind_eq_ok] at hrun
  obtain ⟨first, hfirst, hrest⟩ := hrun
  obtain ⟨grown, hadd, rfl⟩ := map_eq_ok.mp hfirst
  obtain ⟨t, ht, -, hnone, rfl⟩ := Database.addColumn_eq_ok.mp hadd
  exact ⟨t, ht, hnone, hrest⟩

/-- The new column of a step that succeeded is there. -/
theorem Step.hasColumn_of_apply (hs : s.changes = Change.addColumn c :: rest)
    (h : s.apply access db = .ok after) : HasColumn c.key after := by
  obtain ⟨changed, hrun, hrecord⟩ := Step.apply_eq_ok.mp (Step.apply_granted h)
  obtain ⟨t, -, -, hrest⟩ := Step.run_addColumn_eq_ok hs hrun
  have hnew : HasColumn c.key (db.setTable messagesTable (t.withColumn c)).altered := by
    refine ⟨t.withColumn c, Database.table?_setTable_self db messagesTable _, ?_⟩
    rw [Table.columns_withColumn, List.map_append]
    exact List.mem_append_right _ List.mem_cons_self
  exact (hnew.changes hrest).recordVersion hrecord

/-- A step fails where its new column is there already. -/
theorem HasColumn.apply_ne_ok (h : HasColumn c.key db)
    (hs : s.changes = Change.addColumn c :: rest) : s.apply access db ≠ .ok after := by
  intro hafter
  obtain ⟨changed, hrun, -⟩ := Step.apply_eq_ok.mp (Step.apply_granted hafter)
  obtain ⟨t, ht, hnone, -⟩ := Step.run_addColumn_eq_ok hs hrun
  obtain ⟨u, hu, hkey⟩ := h
  obtain rfl : t = u := Option.some.inj (ht.symm.trans hu)
  exact Table.column?_eq_none.mp hnone hkey

/-- No step succeeds twice. -/
theorem Step.apply_once (hs : s ∈ Step.all) (h : s.apply access db = .ok mid) :
    s.apply access mid ≠ .ok after := by
  obtain ⟨c, rest, hchanges⟩ := Step.exists_addColumn hs
  exact (Step.hasColumn_of_apply hchanges h).apply_ne_ok hchanges

end NewColumn

end Once

/-! ## Versions, step by step -/

/-- Whatever version is recorded in this store is read again. -/
structure Resumable (db : Database) : Prop where
  messages : db.hasTableNamed messagesTable = true
  named : db.RecordNamed
  integer : ∀ t c, db.table? versionTable = some t → t.column? "version" = some c →
    c.affinity = .integer

section Resumption

variable {s : Step} {v : Nat} {db after : Database}

/-- A store whose version could be read is one, unless the version table goes by another
spelling of its name. -/
theorem Resumable.of_storedVersion (hv : storedVersion db = .ok (some v)) (hdb : db.Conforms)
    (hnamed : db.RecordNamed) : Resumable db where
  messages := hasMessages_of_storedVersion hv
  named := hnamed
  integer := by
    intro t c ht hc
    have hlisted : db.hasTableNamed versionTable = true :=
      Database.hasTableNamed_iff.mpr ⟨t, ht, hnamed t ht⟩
    exact hdb.recordsIntegers (record?_of_storedVersion hv hlisted).1 t c ht hc

theorem messagesTable_ne_versionTable : nameKey messagesTable ≠ nameKey versionTable := by decide

/-- Changes of the table of messages leave the record alone. -/
theorem Resumable.of_confined (h : Resumable db)
    (hconfined : Database.Confined (nameKey messagesTable) db after) : Resumable after where
  messages := by
    obtain ⟨t, ht, -⟩ := Database.hasTableNamed_iff.mp h.messages
    rw [hconfined.hasTableNamed_of_isSome (by rw [ht]; rfl)]
    exact h.messages
  named := by
    intro t ht
    rw [hconfined.table?_of_ne messagesTable_ne_versionTable.symm] at ht
    exact h.named t ht
  integer := by
    intro t c ht
    rw [hconfined.table?_of_ne messagesTable_ne_versionTable.symm] at ht
    exact h.integer t c ht

theorem Resumable.recordVersion {version : Nat} (h : Resumable db) (hrange : InUInt32 version)
    (hrecord : transaction .granted (recordVersion version) db = .ok after) :
    Resumable after ∧ storedVersion after = .ok (some version) := by
  have hconfined := recordVersion_confined hrecord
  obtain ⟨u, hu, hholds, hold, hnew⟩ := exists_recorded hrecord
  have hmessages : after.hasTableNamed messagesTable = true := by
    rw [hconfined.hasTableNamed_of_ne messagesTable_ne_versionTable]
    exact h.messages
  have hname : u.name = versionTable := by
    cases ht : db.table? versionTable with
    | none => exact (hnew ht).1
    | some t => exact (hold t ht).1.trans (h.named t ht)
  have hinteger : after.RecordsIntegers :=
    Database.RecordsIntegers.recordVersion h.integer hrecord
  refine ⟨⟨hmessages, ?_, hinteger⟩, ?_⟩
  · intro t ht
    obtain rfl : u = t := Option.some.inj (hu.symm.trans ht)
    exact hname
  · exact storedVersion_of_holdsVersion hmessages hu hname hholds hrange (hinteger u · hu)

/-- The version that a step leads to is the one that is read after it. -/
theorem Resumable.apply (h : Resumable db) (hs : Step.leadingFrom? v = some s)
    (hdb : s.apply .granted db = .ok after) :
    Resumable after ∧ storedVersion after = .ok (some (v + 1)) := by
  obtain ⟨mid, hrun, hrecord⟩ := Step.apply_eq_ok.mp hdb
  rw [Step.target_of_leadingFrom? hs] at hrecord
  have hlt : v < 5 := Step.lt_of_leadingFrom? hs
  have hrange : InUInt32 (v + 1 : Nat) := ⟨by omega, by omega⟩
  exact (h.of_confined (Step.run_confined hrun)).recordVersion hrange hrecord

end Resumption

end MessageCache
