/-
# The version record: what is written is what is read

The record is written by a name that SQL resolves without regard to case, and looked
for by a comparison of names that does not ignore it.  What is on record by the first
notion is `Database.record?`, and a version that was written is on record afterwards
(`HoldsVersion.record?_eq`), with the rows beside it as they were
(`otherRows_recordedRows`).  There are then two things to say about it:

    storedVersion_of_record?   it is read again, if the table has the name exactly
    storedVersion_unnamed      otherwise version 0 is read, whatever was recorded

`Database.RecordNamed` is what tells the two cases apart.  It holds where there is no
version table yet, since the record is then created under the right name.
-/
import MessageCache.Proofs.Table.Conformance
import MessageCache.Schema.Version

namespace MessageCache

/-! ## Names -/

namespace Database

variable {db after : Database}

theorem hasTableNamed_iff {name : String} :
    db.hasTableNamed name = true ↔ ∃ t, db.table? name = some t ∧ t.name = name := by
  unfold hasTableNamed
  cases db.table? name <;> simp

/-- No table stands in the place of the version table under another spelling of its name. -/
def RecordNamed (db : Database) : Prop :=
  ∀ t, db.table? versionTable = some t → t.name = versionTable

theorem exists_of_not_recordNamed (h : ¬ db.RecordNamed) :
    ∃ t, db.table? versionTable = some t ∧ t.name ≠ versionTable := by
  cases ht : db.table? versionTable with
  | none =>
      refine absurd ?_ h
      intro u hu
      exact nomatch ht.symm.trans hu
  | some t =>
      refine ⟨t, rfl, fun hname => h ?_⟩
      intro u hu
      obtain rfl : t = u := Option.some.inj (ht.symm.trans hu)
      exact hname

end Database

/-! ## Reading -/

/-- The rows that have the id of the record. -/
def recordRows (t : Table) : List Row := t.rows.filter fun r => versionCondition.holds t r

/-- The cell that is on record: the version in the first row with the id of the record. -/
def Database.record? (db : Database) : Option Cell :=
  (db.table? versionTable).bind fun t =>
    (t.column? "version").bind fun c => (recordRows t).head?.map fun r => r.cell c.key

/-- The version that a cell on record stands for. -/
def versionOfCell : Cell → Except StoreError Nat
  | .integer n => versionOfInteger n
  | _ => .error .corruptStore

theorem versionOfInteger_eq_ok {n : Int64} {v : Nat} :
    versionOfInteger n = .ok v ↔ InUInt32 v ∧ n = Int64.ofNat v := by
  unfold versionOfInteger
  constructor
  · intro h
    split at h
    · rename_i hrange
      cases h
      have htoNat : (n.toInt.toNat : Int) = n.toInt := Int.toNat_of_nonneg hrange.1
      refine ⟨htoNat.symm ▸ hrange, ?_⟩
      rw [← Int64.toInt_inj, toInt_ofNat (htoNat.symm ▸ inInt64_toInt n), htoNat]
    · cases h
  · rintro ⟨hrange, rfl⟩
    rw [toInt_ofNat hrange.inInt64, if_pos hrange, Int.toNat_natCast]

/-- The version table, if there is one, keeps versions as integers. -/
def Database.RecordsIntegers (db : Database) : Prop :=
  ∀ t c, db.table? versionTable = some t → t.column? "version" = some c → c.affinity = .integer

section Reading

variable {db : Database} {t : Table} {c : Column} {cell : Cell} {v : Nat}

theorem storedVersion_unnamed (hm : db.hasTableNamed messagesTable = true)
    (hv : db.hasTableNamed versionTable = false) : storedVersion db = .ok (some 0) := by
  simp [storedVersion, hm, hv]

/-- The record can be asked for iff both columns are known. -/
theorem select_record (ht : db.table? versionTable = some t) :
    db.select versionTable ["version"] versionCondition none =
      match t.missing? ["version", "id"] with
      | some name => .error (.noSuchColumn name)
      | none => .ok ((recordRows t).map (Database.project t ["version"])) := by
  unfold Database.select
  rw [Database.find_eq_ok.mpr ht, ok_bind]
  show Database.known t ["version", "id"] >>= _ = _
  unfold Database.known
  cases t.missing? ["version", "id"] <;> rfl

theorem exists_versionColumn (hknown : t.missing? ["version", "id"] = none) :
    ∃ c, t.column? "version" = some c := by
  have hkeys := (Table.missing?_eq_none (by decide)).mp hknown
  exact Option.isSome_iff_exists.mp
    (Table.isSome_column?.mpr (hkeys "version" List.mem_cons_self))

theorem record?_eq (ht : db.table? versionTable = some t) (hc : t.column? "version" = some c) :
    db.record? = (recordRows t).head?.map fun r => r.cell c.key := by
  rw [Database.record?, ht, Option.bind_some, hc, Option.bind_some]

/-- There is something on record only in a version table with both columns. -/
theorem exists_row_of_record? (h : db.record? = some cell) :
    ∃ t c r, db.table? versionTable = some t ∧ t.missing? ["version", "id"] = none ∧
      t.column? "version" = some c ∧ r ∈ t.rows ∧ r.cell c.key = cell := by
  obtain ⟨t, ht, h⟩ := Option.bind_eq_some_iff.mp h
  obtain ⟨c, hc, h⟩ := Option.bind_eq_some_iff.mp h
  obtain ⟨r, hr, hcell⟩ := Option.map_eq_some_iff.mp h
  obtain ⟨hrow, hholds⟩ := List.mem_filter.mp (List.mem_of_head? hr)
  refine ⟨t, c, r, ht, ?_, hc, hrow, hcell⟩
  rw [Table.missing?_eq_none (by decide)]
  intro name hname
  rw [List.mem_cons, List.mem_singleton] at hname
  rw [← Table.isSome_column?]
  rcases hname with rfl | rfl
  · rw [hc]
    rfl
  · -- the row has the id of the record, so there are ids
    unfold versionCondition Condition.holds at hholds
    cases hid : t.column? "id" with
    | some d => rfl
    | none =>
        rw [hid] at hholds
        cases hholds

/-- How the version is read from a version table. -/
theorem storedVersion_eq (hm : db.hasTableNamed messagesTable = true)
    (ht : db.table? versionTable = some t) (hname : t.name = versionTable) :
    storedVersion db =
      match t.missing? ["version", "id"] with
      | some name => .error (.database (.noSuchColumn name))
      | none => (db.record?.elim (.error .corruptStore) versionOfCell).map some := by
  have hlisted := Database.hasTableNamed_iff.mpr ⟨t, ht, hname⟩
  rw [storedVersion, hm, hlisted, select_record ht]
  cases hknown : t.missing? ["version", "id"] with
  | some name => rfl
  | none =>
      obtain ⟨c, hc⟩ := exists_versionColumn hknown
      rw [record?_eq ht hc]
      cases recordRows t with
      | nil => rfl
      | cons r rest =>
          simp only [List.map_cons, Database.project, hc, ResultRow.integer, ResultRow.cell]
          cases hcell : r.cell c.key <;> simp [versionOfCell, hcell] <;> rfl

/-- Where the record is searched for, the version is what is on record. -/
theorem storedVersion_of_record? (hm : db.hasTableNamed messagesTable = true)
    (hlisted : db.hasTableNamed versionTable = true) (h : db.record? = some cell) :
    storedVersion db = (versionOfCell cell).map some := by
  obtain ⟨t, c, r, ht, hknown, -⟩ := exists_row_of_record? h
  obtain ⟨u, hu, hname⟩ := Database.hasTableNamed_iff.mp hlisted
  obtain rfl : t = u := Option.some.inj (ht.symm.trans hu)
  rw [storedVersion_eq hm ht hname, hknown, h]
  rfl

theorem hasMessages_of_storedVersion (h : storedVersion db = .ok (some v)) :
    db.hasTableNamed messagesTable = true := by
  cases hm : db.hasTableNamed messagesTable with
  | true => rfl
  | false =>
      rw [storedVersion, hm] at h
      cases h

/-- A version that was read from a record is on record. -/
theorem record?_of_storedVersion (h : storedVersion db = .ok (some v))
    (hlisted : db.hasTableNamed versionTable = true) :
    db.record? = some (.integer (Int64.ofNat v)) ∧ InUInt32 v := by
  have hm := hasMessages_of_storedVersion h
  cases hrecord : db.record? with
  | none =>
      obtain ⟨t, ht, hname⟩ := Database.hasTableNamed_iff.mp hlisted
      rw [storedVersion_eq hm ht hname, hrecord] at h
      split at h <;> cases h
  | some cell =>
      rw [storedVersion_of_record? hm hlisted hrecord, map_eq_ok] at h
      obtain ⟨w, hw, hwv⟩ := h
      obtain rfl : w = v := Option.some.inj hwv
      cases cell with
      | integer n =>
          obtain ⟨hrange, rfl⟩ := versionOfInteger_eq_ok.mp hw
          exact ⟨rfl, hrange⟩
      | null | real _ | text _ | blob _ => cases hw

/-- No column of texts has an integer in it. -/
theorem Database.Conforms.recordsIntegers {n : Int64} (hdb : db.Conforms)
    (h : db.record? = some (.integer n)) : db.RecordsIntegers := by
  obtain ⟨t, c, r, ht, hknown, hc, hr, hcell⟩ := exists_row_of_record? h
  intro u d hu hd
  obtain rfl : t = u := Option.some.inj (ht.symm.trans hu)
  obtain rfl : c = d := Option.some.inj (hc.symm.trans hd)
  have hcell' := (hdb _ t ht).rows r hr "version" c hc
  rw [hcell] at hcell'
  exact Affinity.eq_integer_of_apply hcell'

end Reading

/-! ## Writing -/

theorem Cell.same_self (a : Cell) : a.same a = true := by
  have h : a.le a = true := (a.le_total a).elim id id
  rw [Cell.same, h]
  rfl

theorem Cell.same_comm (a b : Cell) : a.same b = b.same a := Bool.and_comm _ _

theorem Comparison.eq_holds_comm (a b : Cell) : eq.holds a b = eq.holds b a := by
  unfold holds test
  rw [Cell.same_comm a b, Bool.and_comm (decide (a ≠ .null))]

theorem Comparison.eq_holds_self {a : Cell} (h : a ≠ .null) : eq.holds a a = true := by
  simp [holds, test, h, Cell.same_self]

/-- The values of a record. -/
def recordValues (version : Nat) : List (String × Cell) :=
  [("id", .integer 1), ("version", .integer (Int64.ofNat version))]

theorem recordValues_ids {version : Nat} :
    ∀ v ∈ recordValues version, nameKey v.1 ∉ Table.idNames := by
  intro v hv
  simp only [recordValues, List.mem_cons, List.not_mem_nil, or_false] at hv
  rcases hv with rfl | rfl
  · exact (by decide : nameKey "id" ∉ Table.idNames)
  · exact (by decide : nameKey "version" ∉ Table.idNames)

section Writing

variable {db after : Database} {t : Table} {c : Column} {version : Nat}

/-- A row has the id of the record iff it has the key of a new record. -/
theorem versionCondition_holds (version : Nat) (hid : (t.column? "id").isSome) (r : Row) :
    versionCondition.holds t r =
      Database.sameKey "id" (Database.nextRow t (recordValues version)) r := by
  obtain ⟨d, hd⟩ := Option.isSome_iff_exists.mp hid
  have hkey : d.key = "id" := Table.key_of_column? hd
  have hcell := Database.cell_nextRow (recordValues version) hd
  rw [hkey] at hcell
  simp only [versionCondition, Condition.holds, hd, Database.sameKey, hkey]
  rw [hcell, Comparison.eq_holds_comm]
  rfl

/-- A new record has the id of the record. -/
theorem versionCondition_nextRow (version : Nat) (hid : (t.column? "id").isSome) :
    versionCondition.holds t (Database.nextRow t (recordValues version)) = true := by
  rw [versionCondition_holds version hid]
  obtain ⟨d, hd⟩ := Option.isSome_iff_exists.mp hid
  have hkey : d.key = "id" := Table.key_of_column? hd
  have hcell := Database.cell_nextRow (recordValues version) hd
  rw [hkey] at hcell
  unfold Database.sameKey
  rw [hcell]
  exact Comparison.eq_holds_self (Affinity.apply_integer_ne_null _ _)

/-- The rows of the record hold a version as their column has it, and there is one. -/
structure HoldsVersion (version : Nat) (u : Table) : Prop where
  known : u.missing? ["version", "id"] = none
  nonempty : recordRows u ≠ []
  cells : ∀ c, u.column? "version" = some c → ∀ r ∈ recordRows u,
    r.cell c.key = c.affinity.apply (.integer (Int64.ofNat version))

theorem cell_nextRow_version (hc : t.column? "version" = some c) :
    (Database.nextRow t (recordValues version)).cell c.key =
      c.affinity.apply (.integer (Int64.ofNat version)) := by
  have hkey : c.key = "version" := Table.key_of_column? hc
  have hid : ¬ nameKey "id" = "version" := by decide
  have hversion : nameKey "version" = "version" := by decide
  rw [Database.cell_nextRow _ hc, hkey]
  simp [recordValues, hid, hversion]

/-- The rows of a version table after a record was put into it. -/
def recordedRows (t : Table) (version : Nat) : List Row :=
  Database.assignedRows t "id" "version" (Database.nextRow t (recordValues version))

/-- A row of the record with its version replaced is still one. -/
theorem versionCondition_assigned (version : Nat) (hid : (t.column? "id").isSome) (r : Row) :
    versionCondition.holds t
        (if Database.sameKey "id" (Database.nextRow t (recordValues version)) r then
          r.set "version" ((Database.nextRow t (recordValues version)).cell "version") else r) =
      versionCondition.holds t r := by
  split
  · rw [versionCondition_holds version hid, versionCondition_holds version hid, Database.sameKey,
      Row.cell_set, if_neg (by decide)]
    rfl
  · rfl

/-- Where the id is the key, the row of the record is new or has its version replaced. -/
theorem holdsVersion_recordedRows (hmissing : t.missing? ["version", "id"] = none)
    (hid : (t.column? "id").isSome) :
    HoldsVersion version { t with rows := recordedRows t version } := by
  have hsame := versionCondition_holds version hid
  have hset := versionCondition_assigned version hid
  have hnew := versionCondition_nextRow version hid
  unfold recordedRows Database.assignedRows
  split
  · rename_i hany
    -- the key is taken: its rows stay the rows of the record, with the version replaced
    refine ⟨hmissing, ?_, ?_⟩
    · obtain ⟨r, hr, hrkey⟩ := List.any_eq_true.mp hany
      refine List.ne_nil_of_mem (List.mem_filter.mpr ⟨List.mem_map_of_mem hr, ?_⟩)
      exact (hset r).trans ((hsame r).trans hrkey)
    · intro c hc r hr
      obtain ⟨hmem, hholds⟩ := List.mem_filter.mp hr
      obtain ⟨s, hs, rfl⟩ := List.mem_map.mp hmem
      have hskey := (hsame s).symm.trans ((hset s).symm.trans hholds)
      have hkey : c.key = "version" := Table.key_of_column? hc
      rw [if_pos hskey, Row.cell_set, if_pos hkey, ← hkey]
      exact cell_nextRow_version hc
  · rename_i hany
    refine ⟨hmissing, ?_, ?_⟩
    · refine List.ne_nil_of_mem (List.mem_filter.mpr ⟨?_, hnew⟩)
      exact List.mem_append_right _ List.mem_cons_self
    · intro c hc r hr
      obtain ⟨hmem, hholds⟩ := List.mem_filter.mp hr
      rcases Table.mem_place hmem with rfl | hold
      · exact cell_nextRow_version hc
      · -- no other row has the id of the record
        refine absurd (List.any_eq_true.mpr ⟨r, hold, ?_⟩) hany
        exact (hsame r).symm.trans hholds

/-- The rows beside the record. -/
def otherRows (t : Table) : List Row := t.rows.filter fun r => !versionCondition.holds t r

/-- The other rows stay, if there is a record among them or there are none. -/
theorem otherRows_recordedRows (version : Nat) (hid : (t.column? "id").isSome)
    (hrows : recordRows t = [] → t.rows = []) :
    otherRows { t with rows := recordedRows t version } = otherRows t := by
  show (recordedRows t version).filter (fun r => !versionCondition.holds t r) = _
  unfold recordedRows Database.assignedRows
  split
  · -- no other row is changed
    rw [List.filter_map]
    simp only [Function.comp_def, versionCondition_assigned version hid]
    refine (List.map_congr_left fun r hr => if_neg ?_).trans (List.map_id _)
    rw [← versionCondition_holds version hid]
    simpa using (List.mem_filter.mp hr).2
  · rename_i hany
    have hnone : recordRows t = [] := by
      rw [recordRows, List.filter_eq_nil_iff]
      intro r hr hholds
      rw [versionCondition_holds version hid] at hholds
      exact hany (List.any_eq_true.mpr ⟨r, hr, hholds⟩)
    -- the new row is the only one
    have hplace : Table.place (Database.nextRow t (recordValues version)) t.rows =
        [Database.nextRow t (recordValues version)] := by
      rw [hrows hnone]
      rfl
    rw [hplace, otherRows, hrows hnone, List.filter_cons_of_neg]
    simp [versionCondition_nextRow version hid]

/-- What an insertion of a record makes of the version table. -/
theorem insert_record_eq_ok (ht : db.table? versionTable = some t)
    (h : db.insert versionTable (recordValues version) (.assign "id" "version") = .ok after) :
    t.missing? ["version", "id"] = none ∧ (t.column? "id").isSome ∧
      after = db.setTable versionTable { t with rows := recordedRows t version } := by
  obtain ⟨u, hu, hknown, hconflict, hrow⟩ := Database.insert_eq_ok recordValues_ids h
  obtain rfl : t = u := Option.some.inj (ht.symm.trans hu)
  have hid : (t.column? "id").isSome :=
    Table.isSome_column?.mpr (hknown _ List.mem_cons_self)
  have hmissing : t.missing? ["version", "id"] = none := by
    rw [Table.missing?_eq_none (by decide)]
    intro n hn
    simp only [List.mem_cons, List.not_mem_nil, or_false] at hn
    rcases hn with rfl | rfl
    · exact hknown _ (List.mem_cons_of_mem _ List.mem_cons_self)
    · exact hknown _ List.mem_cons_self
  obtain ⟨d, hd, hdkey⟩ : ∃ d, t.keyColumn? = some d ∧ d.key = "id" := by
    unfold Database.conflictFault? at hconflict
    cases hd : t.keyColumn? with
    | none => simp [hd] at hconflict
    | some d =>
        have hkey : d.key = nameKey "id" := by simpa [hd] using hconflict
        exact ⟨d, rfl, hkey⟩
  rw [Database.insertRow_assign hd, hdkey] at hrow
  exact ⟨hmissing, hid, (Except.ok.inj hrow).symm⟩

/-- Recording a version makes the version table if need be, and puts the record into it. -/
theorem recordVersion_eq_ok :
    transaction .granted (recordVersion version) db = .ok after ↔
      ∃ mid, ((db.table? versionTable).isSome ∧ mid = db ∨
          db.createTable versionTable versionColumns = .ok mid) ∧
        mid.insert versionTable (recordValues version) (.assign "id" "version") = .ok after := by
  have hlast : ∀ mid : Database, transaction .granted
      [.insertOrAssign versionTable (recordValues version) "id" "version"] mid =
        mid.insert versionTable (recordValues version) (.assign "id" "version") := by
    intro mid
    simp only [transaction_cons, Statement.insertOrAssign, Statement.always]
    cases mid.insert versionTable (recordValues version) (.assign "id" "version") <;> rfl
  show transaction .granted (_ :: [Statement.insertOrAssign _ (recordValues version) _ _]) db =
    _ ↔ _
  rw [transaction_cons, bind_eq_ok]
  simp only [hlast, Statement.createTableIfMissing]
  cases ht : (db.table? versionTable).isSome with
  | true =>
      have hno : ∀ mid, db.createTable versionTable versionColumns ≠ .ok mid := by
        intro mid h
        rw [(Database.createTable_eq_ok h).1] at ht
        cases ht
      simp [hno]
  | false =>
      simp only [map_eq_ok, Bool.false_eq_true, if_false, false_and, false_or]
      constructor
      · rintro ⟨a, ⟨mid, hmid, rfl⟩, h⟩
        exact ⟨mid, hmid, h⟩
      · rintro ⟨mid, hmid, h⟩
        exact ⟨_, ⟨mid, hmid, rfl⟩, h⟩

theorem recordVersion_confined (h : transaction .granted (recordVersion version) db = .ok after) :
    Database.Confined (nameKey versionTable) db after := by
  obtain ⟨mid, hmid, hinsert⟩ := recordVersion_eq_ok.mp h
  have hlast := Database.insert_confined hinsert
  rcases hmid with ⟨-, rfl⟩ | hcreate
  · exact hlast
  · exact (Database.createTable_confined hcreate).trans hlast

/-- The version table after a version was recorded: as it was before or as it is created,
but for its rows. -/
theorem exists_recorded (h : transaction .granted (recordVersion version) db = .ok after) :
    ∃ u, after.table? versionTable = some u ∧ HoldsVersion version u ∧
      (∀ t, db.table? versionTable = some t → u.name = t.name ∧ u.columns = t.columns) ∧
      (db.table? versionTable = none → u.name = versionTable ∧ u.columns = versionColumns) := by
  obtain ⟨mid, hmid, hinsert⟩ := recordVersion_eq_ok.mp h
  rcases hmid with ⟨hsome, rfl⟩ | hcreate
  · obtain ⟨t, ht⟩ := Option.isSome_iff_exists.mp hsome
    obtain ⟨hmissing, hid, rfl⟩ := insert_record_eq_ok ht hinsert
    refine ⟨_, Database.table?_setTable_self _ _ _, holdsVersion_recordedRows hmissing hid, ?_, ?_⟩
    · intro t' ht'
      obtain rfl : t = t' := Option.some.inj (ht.symm.trans ht')
      exact ⟨rfl, rfl⟩
    · intro hnone
      exact nomatch hnone.symm.trans ht
  · have hnone := (Database.createTable_eq_ok hcreate).1
    have ht := Database.table?_createTable hcreate
    obtain ⟨hmissing, hid, rfl⟩ := insert_record_eq_ok ht hinsert
    refine ⟨_, Database.table?_setTable_self _ _ _, holdsVersion_recordedRows hmissing hid, ?_,
      fun _ => ⟨rfl, rfl⟩⟩
    intro t ht
    exact nomatch hnone.symm.trans ht

/-- To record a version leaves its column as it is, or makes one for integers. -/
theorem Database.RecordsIntegers.recordVersion (hdb : db.RecordsIntegers)
    (h : transaction .granted (recordVersion version) db = .ok after) :
    after.RecordsIntegers := by
  obtain ⟨u, hu, -, hold, hnew⟩ := exists_recorded h
  intro t c ht hc
  obtain rfl : u = t := Option.some.inj (hu.symm.trans ht)
  cases hold' : db.table? versionTable with
  | none =>
      have hcolumns : ∀ c ∈ versionColumns, c.affinity = .integer := by decide
      exact hcolumns c ((hnew hold').2 ▸ Table.mem_of_column? hc)
  | some t =>
      rw [Table.column?, (hold t hold').2] at hc
      exact hdb t c hold' hc

/-- The table has the columns of a version table; whether they may be null does not
matter. -/
def IsVersionTable (t : Table) : Prop :=
  t.columns.map Layout.nullable = versionColumns.map Layout.nullable

theorem IsVersionTable.columns_eq (h : IsVersionTable t) :
    ∃ m n, t.columns =
      [{ name := "id", affinity := .integer, notNull := m, isKey := true, initial := .null },
        { name := "version", affinity := .integer, notNull := n, isKey := false,
          initial := .null }] := by
  unfold IsVersionTable at h
  obtain ⟨a, as, hcolumns, ha, has⟩ := List.map_eq_cons_iff.mp h
  obtain ⟨b, bs, rfl, hb, hbs⟩ := List.map_eq_cons_iff.mp has
  obtain rfl : bs = [] := List.map_eq_nil_iff.mp hbs
  cases a
  cases b
  cases ha
  cases hb
  exact ⟨_, _, hcolumns⟩

theorem IsVersionTable.affinity (h : IsVersionTable t) (hc : t.column? "version" = some c) :
    c.affinity = .integer := by
  obtain ⟨m, n, hcolumns⟩ := h.columns_eq
  have hmem := Table.mem_of_column? hc
  rw [hcolumns, List.mem_cons, List.mem_singleton] at hmem
  rcases hmem with rfl | rfl <;> rfl

/-- A record can be put into a version table. -/
theorem IsVersionTable.insert_ok (h : IsVersionTable t) (ht : db.table? versionTable = some t)
    (version : Nat) :
    ∃ after, db.insert versionTable (recordValues version) (.assign "id" "version") =
      .ok after := by
  obtain ⟨m, n, hcolumns⟩ := h.columns_eq
  have hkeys : t.columns.map Column.key = ["id", "version"] := by
    rw [hcolumns]
    exact (by decide : [nameKey "id", nameKey "version"] = ["id", "version"])
  have hknown : t.missing? ((recordValues version).map (·.1)) = none := by
    rw [Table.missing?_eq_none (by simpa using recordValues_ids), hkeys]
    intro name hname
    simp only [recordValues, List.map_cons, List.map_nil, List.mem_cons, List.not_mem_nil,
      or_false] at hname
    rcases hname with rfl | rfl
    · decide
    · decide
  have hkey : t.keyColumn? = some
      { name := "id", affinity := .integer, notNull := m, isKey := true, initial := .null } := by
    rw [Table.keyColumn?, hcolumns]
    rfl
  have hconflict : Database.conflictFault? t (.assign "id" "version") = none := by
    rw [Database.conflictFault?, hkey, Option.any_some, if_pos (by simp [Column.key])]
  have hnull : Database.nullColumn? t (Database.nextRow t (recordValues version)) = none := by
    rw [Database.nullColumn?, List.find?_eq_none]
    intro c hc
    have hne : nameKey "id" ≠ nameKey "version" := by decide
    obtain ⟨name, hname, hvalue⟩ : ∃ name, t.column? name = some c ∧
        ∃ v ∈ recordValues version, nameKey v.1 = c.key := by
      rw [hcolumns, List.mem_cons, List.mem_singleton] at hc
      rcases hc with rfl | rfl
      · exact ⟨"id", by simp [Table.column?, hcolumns, Column.key], _, List.mem_cons_self, rfl⟩
      · exact ⟨"version", by simp [Table.column?, hcolumns, Column.key, hne], _,
          List.mem_cons_of_mem _ List.mem_cons_self, rfl⟩
    have hcell := Database.cell_nextRow (recordValues version) hname
    cases hfind : (recordValues version).find? fun v => nameKey v.1 = c.key with
    | none =>
        obtain ⟨v, hv, hvkey⟩ := hvalue
        exact absurd hvkey (by simpa using List.find?_eq_none.mp hfind v hv)
    | some v =>
        have hv : v ∈ recordValues version := List.mem_of_find?_eq_some hfind
        rw [hcell, hfind, Option.map_some, Option.getD_some]
        rw [recordValues, List.mem_cons, List.mem_singleton] at hv
        rcases hv with rfl | rfl
        · simp [Affinity.apply_integer_ne_null]
        · simp [Affinity.apply_integer_ne_null]
  have hwritable : ((recordValues version).map (·.1)).findSome? Database.nameFault? = none :=
    (by decide : ["id", "version"].findSome? Database.nameFault? = none)
  have hne : recordValues version ≠ [] := List.cons_ne_nil _ _
  rw [Database.insert_eq ht hne hwritable recordValues_ids hknown, hconflict, hnull]
  exact ⟨_, Database.insertRow_assign hkey⟩

/-- A version can be recorded where there is a version table or room for its name. -/
theorem recordVersion_ok (db : Database)
    (htable : ∀ t, db.table? versionTable = some t → IsVersionTable t)
    (hindex : db.table? versionTable = none → db.hasIndex versionTable = false) (version : Nat) :
    ∃ after, transaction .granted (recordVersion version) db = .ok after := by
  cases ht : db.table? versionTable with
  | some t =>
      obtain ⟨after, hafter⟩ := (htable t ht).insert_ok ht version
      exact ⟨after, recordVersion_eq_ok.mpr ⟨db, .inl ⟨by rw [ht]; rfl, rfl⟩, hafter⟩⟩
  | none =>
      obtain ⟨n, hcreate⟩ := Database.createTable_ok versionColumns (by decide) ht
        (hindex ht) rfl (by decide)
      have hmid := Database.table?_createTable hcreate
      have hcolumns : IsVersionTable
          { name := versionTable, columns := versionColumns, rows := [] } := by
        unfold IsVersionTable
        rfl
      obtain ⟨after, hafter⟩ := hcolumns.insert_ok hmid version
      exact ⟨after, recordVersion_eq_ok.mpr ⟨_, .inr hcreate, hafter⟩⟩

/-- What was recorded is on record, unless it was put into a column of texts. -/
theorem HoldsVersion.record?_eq (hholds : HoldsVersion version t)
    (ht : db.table? versionTable = some t)
    (hinteger : ∀ c, t.column? "version" = some c → c.affinity = .integer) :
    db.record? = some (.integer (Int64.ofNat version)) := by
  obtain ⟨c, hc⟩ := exists_versionColumn hholds.known
  rw [MessageCache.record?_eq ht hc]
  cases hrows : recordRows t with
  | nil => exact absurd hrows hholds.nonempty
  | cons r rest =>
      have hcell := hholds.cells c hc r (hrows ▸ List.mem_cons_self)
      rw [hinteger c hc, Affinity.apply_integer_integer] at hcell
      rw [List.head?_cons, Option.map_some, hcell]

/-- What was recorded is read again from a table of the right name whose versions are
integers. -/
theorem storedVersion_of_holdsVersion (hm : db.hasTableNamed messagesTable = true)
    (ht : db.table? versionTable = some t) (hname : t.name = versionTable)
    (hholds : HoldsVersion version t) (hrange : InUInt32 version)
    (hinteger : ∀ c, t.column? "version" = some c → c.affinity = .integer) :
    storedVersion db = .ok (some version) := by
  have hlisted := Database.hasTableNamed_iff.mpr ⟨t, ht, hname⟩
  have hversion : versionOfCell (.integer (Int64.ofNat version)) = .ok version :=
    versionOfInteger_eq_ok.mpr ⟨hrange, rfl⟩
  rw [storedVersion_of_record? hm hlisted (hholds.record?_eq ht hinteger), hversion]
  rfl

end Writing

end MessageCache
