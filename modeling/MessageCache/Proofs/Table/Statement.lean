/-
# Statements: when they succeed, and what they make of a table

One equation or inversion for each statement, so that nothing later has to unfold one.

    addColumn_eq_ok              a column is added iff its name is new and there is room for it
    update_eq_ok                 what an update of a column gives when nothing is in its way
    insert_eq                    an insertion of known columns, up to the rules of the table
    exists_insertRow_of_insert   what is known of an insertion that succeeded
    insert_eq_ok                 and if it left the id to the table

Each of them is confined to the table that it names (`addColumn_confined`,
`update_confined`, `insert_confined`).
-/
import MessageCache.Proofs.Table.Transaction

namespace MessageCache

/-! ## Cells by column -/

/-- A row that is made column by column holds in a column what was made for the first
column of that key. -/
theorem findCell_map (f : Column → Cell) (columns : List Column) (key : String) :
    findCell key (columns.map fun c => (c.key, f c)) =
      ((columns.find? fun c => c.key = key).map f).getD .null := by
  induction columns with
  | nil => rfl
  | cons c rest ih =>
      by_cases hc : c.key = key
      · simp [findCell, hc]
      · simp [findCell, hc, ih]

namespace Table

variable {t : Table} {name : String} {c : Column}

theorem key_of_column? (h : t.column? name = some c) : c.key = nameKey name := by
  simpa using List.find?_some h

theorem mem_of_column? (h : t.column? name = some c) : c ∈ t.columns := List.mem_of_find?_eq_some h

theorem isSome_column? : (t.column? name).isSome ↔ nameKey name ∈ t.columns.map Column.key := by
  simp [column?]

/-- Names with one key are the same column. -/
theorem column?_unique {other : String} {d : Column} (hc : t.column? name = some c)
    (hd : t.column? other = some d) (h : c.key = d.key) : c = d := by
  rw [key_of_column? hc, key_of_column? hd] at h
  rw [column?, h] at hc
  exact Option.some.inj (hc.symm.trans hd)

theorem column?_eq_none : t.column? name = none ↔ nameKey name ∉ t.columns.map Column.key := by
  simp [column?]

/-- A name that is not one for row ids means something iff it is that of a column. -/
theorem missing?_eq_none {names : List String} (hids : ∀ n ∈ names, nameKey n ∉ idNames) :
    t.missing? names = none ↔ ∀ n ∈ names, nameKey n ∈ t.columns.map Column.key := by
  unfold missing?
  rw [List.find?_eq_none]
  refine forall₂_congr fun n hn => ?_
  have hno : t.namesId n = false := by simp [namesId, hids n hn]
  rw [hno, ← isSome_column?]
  cases t.column? n <;> simp

/-- Placing a row brings in nothing else. -/
theorem mem_place {r row : Row} {rows : List Row} (h : r ∈ place row rows) :
    r = row ∨ r ∈ rows := by
  simp only [place, List.mem_append, List.mem_cons, List.mem_filter] at h
  rcases h with ⟨h, -⟩ | h | ⟨h, -⟩
  · exact .inr h
  · exact .inl h
  · exact .inr h

/-- The table with one more column, and its initial cell in every row. -/
def withColumn (t : Table) (c : Column) : Table :=
  { t with columns := t.columns ++ [c], rows := t.rows.map fun row => row.set c.key c.initial }

@[simp] theorem name_withColumn (t : Table) (c : Column) : (t.withColumn c).name = t.name := rfl

@[simp] theorem columns_withColumn (t : Table) (c : Column) :
    (t.withColumn c).columns = t.columns ++ [c] := rfl

/-- The table with more columns. -/
def withColumns (t : Table) (columns : List Column) : Table := columns.foldl withColumn t

theorem withColumns_cons (t : Table) (c : Column) (columns : List Column) :
    t.withColumns (c :: columns) = (t.withColumn c).withColumns columns := rfl

theorem columns_withColumns (t : Table) (columns : List Column) :
    (t.withColumns columns).columns = t.columns ++ columns := by
  induction columns generalizing t with
  | nil => exact (List.append_nil _).symm
  | cons c rest ih => rw [withColumns_cons, ih, columns_withColumn, List.append_assoc]; rfl

end Table

namespace Row

/-- The row with the initial cells of more columns. -/
def fill (columns : List Column) (row : Row) : Row :=
  columns.foldl (fun row c => row.set c.key c.initial) row

variable {columns : List Column} {row : Row}

@[simp] theorem id_fill : (row.fill columns).id = row.id := by
  induction columns generalizing row with
  | nil => rfl
  | cons c rest ih => exact ih

theorem cell_fill_of_notMem {key : String} (h : key ∉ columns.map Column.key) :
    (row.fill columns).cell key = row.cell key := by
  induction columns generalizing row with
  | nil => rfl
  | cons c rest ih =>
      rw [List.map_cons, List.mem_cons, not_or] at h
      refine (ih h.2).trans ?_
      rw [cell_set, if_neg h.1]

theorem cell_fill_of_mem {c : Column} (hnodup : (columns.map Column.key).Nodup)
    (h : c ∈ columns) : (row.fill columns).cell c.key = c.initial := by
  induction columns generalizing row with
  | nil => cases h
  | cons d rest ih =>
      rw [List.map_cons, List.nodup_cons] at hnodup
      rcases List.mem_cons.mp h with rfl | h
      · refine (cell_fill_of_notMem hnodup.1).trans ?_
        rw [cell_set, if_pos rfl]
      · exact ih hnodup.2 h

end Row

theorem Table.rows_withColumns (t : Table) (columns : List Column) :
    (t.withColumns columns).rows = t.rows.map (Row.fill columns) := by
  induction columns generalizing t with
  | nil => exact (List.map_id _).symm
  | cons c rest ih =>
      rw [withColumns_cons, ih]
      exact List.map_map

namespace Database

variable {db after : Database} {table column : String} {t : Table}

/-! ## Tables -/

theorem createTable_eq_ok {name : String} {columns : List Column}
    (h : db.createTable name columns = .ok after) :
    db.table? name = none ∧
      ∃ n, after = ((db.setTable name { name, columns, rows := [] }).taking n).altered := by
  unfold createTable at h
  split at h
  · cases h
  · split at h
    · cases h
    · rename_i hnone
      have ht : db.table? name = none := by simpa using hnone
      repeat' split at h
      all_goals cases h
      exact ⟨ht, _, rfl⟩

theorem table?_createTable {name : String} {columns : List Column}
    (h : db.createTable name columns = .ok after) :
    after.table? name = some { name, columns, rows := [] } := by
  obtain ⟨-, n, rfl⟩ := createTable_eq_ok h
  rw [table?_altered, table?_taking, table?_setTable_self]

/-- A table is created if there is nothing wrong with it and nothing of its name. -/
theorem createTable_ok {name : String} (columns : List Column)
    (hname : tableNameFault? name = none) (ht : db.table? name = none)
    (hindex : db.hasIndex name = false) (hempty : columns.isEmpty = false)
    (hcolumns : columnFault? name [] columns = none) :
    ∃ n, db.createTable name columns =
      .ok ((db.setTable name { name, columns, rows := [] }).taking n).altered := by
  refine ⟨(db.parts { name, columns, rows := [] }).length, ?_⟩
  unfold createTable
  simp [hname, ht, hindex, hempty, hcolumns]

theorem createTable_confined {name : String} {columns : List Column}
    (h : db.createTable name columns = .ok after) : Confined (nameKey name) db after := by
  obtain ⟨ht, n, rfl⟩ := createTable_eq_ok h
  exact ((Confined.setTable_new _ ht).taking n).altered

/-! ## Columns -/

theorem addColumn_eq_ok {c : Column} : db.addColumn table c = .ok after ↔
    ∃ t, db.table? table = some t ∧ t.columns.length < mostColumns ∧ t.column? c.name = none ∧
      after = (db.setTable table (t.withColumn c)).altered := by
  unfold addColumn
  simp only [bind_eq_ok, find_eq_ok]
  refine exists_congr fun t => and_congr_right fun _ => ?_
  by_cases hmost : mostColumns ≤ t.columns.length
  · rw [if_pos hmost]
    exact ⟨fun h => (nomatch h), fun ⟨hlt, _⟩ => absurd hlt (Nat.not_lt.mpr hmost)⟩
  · rw [if_neg hmost]
    cases hc : t.column? c.name with
    | some d => exact ⟨fun h => (nomatch h), fun ⟨_, h, _⟩ => (nomatch h)⟩
    | none =>
        refine ⟨fun h => ⟨Nat.not_le.mp hmost, rfl, (Except.ok.inj h).symm⟩, ?_⟩
        rintro ⟨_, _, rfl⟩
        rfl

theorem addColumn_confined {c : Column} (h : db.addColumn table c = .ok after) :
    Confined (nameKey table) db after := by
  obtain ⟨t, ht, -, -, rfl⟩ := addColumn_eq_ok.mp h
  exact (Confined.setTable ht (t.name_withColumn c)).altered

/-- Columns with new keys can be added one after the other. -/
theorem addColumns_ok {columns : List Column} (ht : db.table? table = some t)
    (hkeys : ((t.columns ++ columns).map Column.key).Nodup)
    (hmost : (t.columns ++ columns).length ≤ mostColumns) :
    ∃ after, transaction .granted (columns.map (Statement.addColumn table)) db = .ok after ∧
      after.table? table = some (t.withColumns columns) := by
  induction columns generalizing db t with
  | nil => exact ⟨db, rfl, ht⟩
  | cons c rest ih =>
      have hc : t.column? c.name = none := by
        rw [Table.column?_eq_none]
        rw [List.map_append, List.nodup_append] at hkeys
        intro hmem
        exact hkeys.2.2 _ hmem _ List.mem_cons_self rfl
      have hlt : t.columns.length < mostColumns := by
        rw [List.length_append, List.length_cons] at hmost
        omega
      have hadd : db.addColumn table c = .ok (db.setTable table (t.withColumn c)).altered :=
        addColumn_eq_ok.mpr ⟨t, ht, hlt, hc, rfl⟩
      have ht' : (db.setTable table (t.withColumn c)).altered.table? table =
          some (t.withColumn c) := by
        rw [table?_altered, table?_setTable_self]
      have happend : (t.withColumn c).columns ++ rest = t.columns ++ c :: rest := by
        rw [Table.columns_withColumn, List.append_assoc]
        rfl
      obtain ⟨after, hrest, hafter⟩ := ih ht' (happend ▸ hkeys) (happend ▸ hmost)
      refine ⟨after, ?_, hafter⟩
      rw [List.map_cons, transaction_cons, bind_eq_ok]
      exact ⟨_, map_eq_ok.mpr ⟨_, hadd, rfl⟩, hrest⟩

/-! ## Updates -/

/-- The table with a cell put into a column of the rows that a condition means. -/
def assigned (t : Table) (key : String) (cell : Cell) (cond : Condition) : Table :=
  { t with rows := t.rows.map fun r => if cond.holds t r then r.set key cell else r }

theorem update_eq_ok (value : Cell) (cond : Condition) {c : Column}
    (ht : db.table? table = some t) (hname : nameFault? column = none)
    (hknown : t.missing? (column :: cond.columns) = none) (hc : t.column? column = some c)
    (hvalue : c.affinity.apply value ≠ .null) (hkey : c.isKey = false) :
    db.update table column value cond =
      .ok (t.rows.countP (cond.holds t ·),
        db.setTable table (assigned t c.key (c.affinity.apply value) cond)) := by
  unfold update
  simp [writable, hname, find_eq_ok.mpr ht, known, hknown, hc, hvalue, hkey, bind, Except.bind,
    pure, Except.pure, assigned]

/-- An update changes the rows of its table at most. -/
theorem exists_rows_of_update {value : Cell} {cond : Condition} {n : Nat}
    (h : db.update table column value cond = .ok (n, after)) :
    ∃ t rows, db.table? table = some t ∧ after = db.setTable table { t with rows } := by
  unfold update at h
  simp only [bind_eq_ok, find_eq_ok] at h
  obtain ⟨-, -, t, ht, -, -, h⟩ := h
  cases hc : t.column? column with
  | none =>
      simp only [hc, renumber] at h
      split at h
      · cases h
        exact ⟨t, t.rows, ht, (setTable_self ht).symm⟩
      · obtain ⟨id, -, h⟩ := bind_eq_ok.mp h
        split at h
        · cases h
        · cases h
          exact ⟨t, _, ht, rfl⟩
  | some c =>
      simp only [hc] at h
      split at h
      · cases h
      · split at h
        · cases h
        · cases h
          exact ⟨t, _, ht, rfl⟩

theorem update_confined {value : Cell} {cond : Condition} {n : Nat}
    (h : db.update table column value cond = .ok (n, after)) :
    Confined (nameKey table) db after := by
  obtain ⟨t, rows, ht, rfl⟩ := exists_rows_of_update h
  exact Confined.setTable ht rfl

/-! ## Insertions -/

theorem givenId?_eq_none {values : List (String × Cell)}
    (hids : ∀ v ∈ values, nameKey v.1 ∉ Table.idNames) : givenId? t values = .ok none := by
  have hnone : (values.filter fun v => t.namesId v.1) = [] := by
    rw [List.filter_eq_nil_iff]
    intro v hv
    simp [Table.namesId, hids v hv]
  rw [givenId?, hnone]
  rfl

/-- The row that values make when the table chooses its id. -/
def nextRow (t : Table) (values : List (String × Cell)) : Row :=
  newRow t (Table.nextId (t.rows.map (·.id))) values

/-- An insertion that leaves the id to the table, once its names are known. -/
theorem insert_eq {values : List (String × Cell)} {onConflict : OnConflict}
    (ht : db.table? table = some t) (hne : values ≠ [])
    (hnames : (values.map (·.1)).findSome? nameFault? = none)
    (hids : ∀ v ∈ values, nameKey v.1 ∉ Table.idNames)
    (hknown : t.missing? (values.map (·.1)) = none) :
    db.insert table values onConflict =
      match conflictFault? t onConflict, nullColumn? t (nextRow t values) with
      | some fault, _ => .error fault
      | none, some c => .error (.notNull t.name c.name)
      | none, none => db.insertRow table t (nextRow t values) onConflict := by
  unfold insert
  have hempty : ¬ values.isEmpty = true := by simpa using hne
  rw [if_neg hempty]
  simp only [writable, hnames, find_eq_ok.mpr ht, hknown, givenId?_eq_none hids, ok_bind]
  cases conflictFault? t onConflict with
  | some fault => rfl
  | none =>
      simp only [Option.getD_none, Option.any_none]
      rw [← nextRow]
      cases nullColumn? t (nextRow t values) <;> rfl

/-- What is known of an insertion that succeeded. -/
theorem exists_insertRow_of_insert {values : List (String × Cell)} {onConflict : OnConflict}
    (h : db.insert table values onConflict = .ok after) :
    ∃ t given, db.table? table = some t ∧ t.missing? (values.map (·.1)) = none ∧
      conflictFault? t onConflict = none ∧ givenId? t values = .ok given ∧
      db.insertRow table t (newRow t (given.getD (Table.nextId (t.rows.map (·.id)))) values)
        onConflict = .ok after := by
  unfold insert at h
  split at h
  · cases h
  · simp only [bind_eq_ok, find_eq_ok] at h
    obtain ⟨-, -, t, ht, h⟩ := h
    split at h
    · cases h
    · rename_i hmissing
      split at h
      · cases h
      · rename_i hconflict
        obtain ⟨given, hgiven, h⟩ := bind_eq_ok.mp h
        refine ⟨t, given, ht, hmissing, hconflict, hgiven, ?_⟩
        split at h
        · cases h
        · split at h
          · cases h
          · exact h

/-- What is known of an insertion that succeeded and left the id to the table. -/
theorem insert_eq_ok {values : List (String × Cell)} {onConflict : OnConflict}
    (hids : ∀ v ∈ values, nameKey v.1 ∉ Table.idNames)
    (h : db.insert table values onConflict = .ok after) :
    ∃ t, db.table? table = some t ∧ (∀ v ∈ values, nameKey v.1 ∈ t.columns.map Column.key) ∧
      conflictFault? t onConflict = none ∧
      db.insertRow table t (nextRow t values) onConflict = .ok after := by
  obtain ⟨t, given, ht, hmissing, hconflict, hgiven, hrow⟩ := exists_insertRow_of_insert h
  obtain rfl : none = given := Except.ok.inj ((givenId?_eq_none hids).symm.trans hgiven)
  have hknown := (Table.missing?_eq_none (by simpa using hids)).mp hmissing
  exact ⟨t, ht, fun v hv => hknown v.1 (List.mem_map_of_mem hv), hconflict, hrow⟩

/-- An insertion of a whole row is one of its values by name. -/
theorem exists_insert_of_insertWhole {values : List Cell}
    (h : db.insertWhole table values = .ok after) :
    ∃ named, db.insert table named .replace = .ok after := by
  unfold insertWhole at h
  obtain ⟨t, -, h⟩ := bind_eq_ok.mp h
  split at h
  · cases h
  · exact ⟨_, h⟩

theorem insertRow_confined {row : Row} {onConflict : OnConflict}
    (ht : db.table? table = some t) (h : db.insertRow table t row onConflict = .ok after) :
    Confined (nameKey table) db after := by
  unfold insertRow at h
  split at h
  · cases h
    exact Confined.setTable ht rfl
  · split at h
    · split at h <;> cases h <;> exact Confined.setTable ht rfl
    · cases h
      exact Confined.setTable ht rfl

theorem insert_confined {values : List (String × Cell)} {onConflict : OnConflict}
    (h : db.insert table values onConflict = .ok after) : Confined (nameKey table) db after := by
  obtain ⟨t, given, ht, -, -, -, hrow⟩ := exists_insertRow_of_insert h
  exact insertRow_confined ht hrow

/-- The rows after an insertion that assigns a column where the key is taken. -/
def assignedRows (t : Table) (key column : String) (row : Row) : List Row :=
  if t.rows.any (sameKey key row) then
    t.rows.map fun r => if sameKey key row r then r.set column (row.cell column) else r
  else Table.place row t.rows

theorem insertRow_assign {row : Row} {key column : String} {c : Column}
    (hc : t.keyColumn? = some c) :
    db.insertRow table t row (.assign key column) =
      .ok (db.setTable table { t with rows := assignedRows t c.key (nameKey column) row }) := by
  unfold insertRow assignedRows
  simp only [hc]
  split <;> rfl

/-- The cell that a value for a column becomes. -/
theorem cell_newRow (id : Int) (values : List (String × Cell)) {name : String} {c : Column}
    (hc : t.column? name = some c) :
    (newRow t id values).cell c.key =
      ((values.find? fun v => nameKey v.1 = c.key).map (c.affinity.apply ·.2)).getD c.initial := by
  have hkey : c.key = nameKey name := Table.key_of_column? hc
  have hfind : (t.columns.find? fun d => d.key = c.key) = some c := by rw [hkey]; exact hc
  unfold Row.cell newRow
  rw [findCell_map (fun c => _) t.columns c.key, hfind]
  simp only [Option.map_some, Option.getD_some, List.find?_map, Function.comp_def]
  cases values.find? fun v => nameKey v.1 = c.key <;> rfl

theorem cell_nextRow (values : List (String × Cell)) {name : String} {c : Column}
    (hc : t.column? name = some c) :
    (nextRow t values).cell c.key =
      ((values.find? fun v => nameKey v.1 = c.key).map (c.affinity.apply ·.2)).getD c.initial :=
  cell_newRow _ values hc

/-- The cell that a value for a column becomes, if no other value is for that column. -/
theorem cell_nextRow_of_mem {values : List (String × Cell)} {name : String} {x : Cell} {c : Column}
    (hc : t.column? name = some c) (hnodup : (values.map fun v => nameKey v.1).Nodup)
    (hmem : (name, x) ∈ values) :
    (nextRow t values).cell (nameKey name) = c.affinity.apply x := by
  have hkey : c.key = nameKey name := Table.key_of_column? hc
  have hfind : (values.find? fun v => nameKey v.1 = nameKey name) = some (name, x) := by
    induction values with
    | nil => cases hmem
    | cons v rest ih =>
        rw [List.map_cons, List.nodup_cons] at hnodup
        rcases List.mem_cons.mp hmem with rfl | hrest
        · exact List.find?_cons_of_pos (decide_eq_true rfl)
        · have hne : nameKey v.1 ≠ nameKey name := by
            intro heq
            exact hnodup.1 (heq ▸ List.mem_map_of_mem hrest)
          rw [List.find?_cons_of_neg (by simpa using hne)]
          exact ih hnodup.2 hrest
  rw [← hkey, cell_nextRow values hc, hkey, hfind]
  rfl

end Database

end MessageCache
