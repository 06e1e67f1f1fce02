/-
# Conformance: columns hold what they make of a cell

A cell that is put into a column first takes the column's affinity, and what has the
affinity already stays as it is (`apply_apply`).  So each cell of a database is what its
column makes of it: it is so in a database without tables, and whatever change a statement
makes keeps it (`Conforms.of_becomes`), so that it is so of every database that statements
lead to (`Reached.conforms`).

    statement  --one of these-->  change  --one lemma each-->  Conforms kept

The only thing that is asked of statements is that new columns begin with cells that they
keep.
-/
import MessageCache.Proofs.Table.Statement

namespace MessageCache

/-! ## Affinities -/

namespace Affinity

theorem integerOfReal_cases (x : Binary64) :
    (∃ n, integerOfReal x = .integer n) ∨ integerOfReal x = .real x := by
  unfold integerOfReal
  cases x.toInt? with
  | none => exact .inr rfl
  | some n =>
      simp only
      split
      · exact .inl ⟨_, rfl⟩
      · exact .inr rfl

theorem apply_integerOfReal (x : Binary64) :
    apply .integer (integerOfReal x) = integerOfReal x := by
  rcases integerOfReal_cases x with ⟨n, hn⟩ | hx
  · rw [hn]
    rfl
  · rw [hx]
    exact hx

theorem apply_integerOfText (b : Bytes) :
    apply .integer (integerOfText b) = integerOfText b := by
  by_cases hread : Decimal.read? (latin (trimmed b)) = none
  · have hb : integerOfText b = .text b := by rw [integerOfText, hread]
    rw [hb]
    exact hb
  · obtain ⟨w, hw⟩ := Option.ne_none_iff_exists'.mp hread
    simp only [integerOfText, hw]
    generalize (if w.value.negative = true then -(w.value.digits : Int) else _) = n
    split
    · rfl
    · exact apply_integerOfReal _

/-- An affinity leaves alone what it made. -/
theorem apply_apply (a : Affinity) (c : Cell) : a.apply (a.apply c) = a.apply c := by
  cases a with
  | integer =>
      cases c with
      | real x => exact apply_integerOfReal x
      | text b => exact apply_integerOfText b
      | null | integer _ | blob _ => rfl
  | text => cases c <;> rfl

theorem apply_integer_ne_null (a : Affinity) (n : Int64) : a.apply (.integer n) ≠ .null := by
  cases a <;> exact fun h => (nomatch h)

/-- No text column holds an integer. -/
theorem eq_integer_of_apply {a : Affinity} {n : Int64} (h : a.apply (.integer n) = .integer n) :
    a = .integer := by
  cases a with
  | integer => rfl
  | text => nomatch h

end Affinity

/-! ## Tables -/

namespace Table

/-- A row holds in every column what the column makes of it. -/
def RowConforms (t : Table) (r : Row) : Prop :=
  ∀ name c, t.column? name = some c → c.affinity.apply (r.cell c.key) = r.cell c.key

/-- Every cell, and every cell that a column begins with, is what its column makes of it. -/
structure Conforms (t : Table) : Prop where
  initial : ∀ name c, t.column? name = some c → c.affinity.apply c.initial = c.initial
  rows : ∀ r ∈ t.rows, t.RowConforms r

variable {t : Table}

theorem RowConforms.set {r : Row} (hr : t.RowConforms r) {key : String} {cell : Cell}
    (hcell : ∀ name c, t.column? name = some c → c.key = key → c.affinity.apply cell = cell) :
    t.RowConforms (r.set key cell) := by
  intro name c hc
  rw [Row.cell_set]
  split
  · rename_i hkey
    exact hcell name c hc hkey
  · exact hr name c hc

theorem Conforms.newRow (ht : t.Conforms) (id : Int) (values : List (String × Cell)) :
    t.RowConforms (Database.newRow t id values) := by
  intro name c hc
  rw [Database.cell_newRow id values hc]
  cases values.find? fun v => nameKey v.1 = c.key with
  | none => exact ht.initial name c hc
  | some v => exact Affinity.apply_apply _ _

theorem column?_withColumn {d : Column} (hd : t.column? d.name = none) {name : String}
    {c : Column} (hc : (t.withColumn d).column? name = some c) :
    t.column? name = some c ∧ c.key ≠ d.key ∨ c = d := by
  simp only [column?, columns_withColumn, List.find?_append] at hc
  cases hname : t.columns.find? fun c => c.key = nameKey name with
  | none =>
      rw [hname, Option.none_or] at hc
      exact .inr (List.mem_singleton.mp (List.mem_of_find?_eq_some hc))
  | some e =>
      rw [hname, Option.some_or, Option.some.injEq] at hc
      subst hc
      refine .inl ⟨hname, fun hkey => column?_eq_none.mp hd ?_⟩
      rw [show nameKey d.name = e.key from hkey.symm]
      exact List.mem_map_of_mem (List.mem_of_find?_eq_some hname)

theorem Conforms.withColumn (ht : t.Conforms) {d : Column} (hd : t.column? d.name = none)
    (hinitial : d.affinity.apply d.initial = d.initial) : (t.withColumn d).Conforms where
  initial name c hc := by
    rcases column?_withColumn hd hc with ⟨hold, -⟩ | rfl
    · exact ht.initial name c hold
    · exact hinitial
  rows := by
    intro r hr name c hc
    obtain ⟨s, hs, rfl⟩ := List.mem_map.mp hr
    rw [Row.cell_set]
    rcases column?_withColumn hd hc with ⟨hold, hkey⟩ | rfl
    · rw [if_neg hkey]
      exact ht.rows s hs name c hold
    · rw [if_pos rfl]
      exact hinitial

/-- Only the columns matter for what conforms. -/
theorem Conforms.withRows (ht : t.Conforms) {rows : List Row}
    (hrows : ∀ r ∈ rows, t.RowConforms r) : ({ t with rows } : Table).Conforms where
  initial := ht.initial
  rows := hrows

theorem Conforms.filter (ht : t.Conforms) (p : Row → Bool) :
    ({ t with rows := t.rows.filter p } : Table).Conforms :=
  ht.withRows fun r hr => ht.rows r (List.mem_filter.mp hr).1

theorem Conforms.place (ht : t.Conforms) {row : Row} (hrow : t.RowConforms row) :
    ({ t with rows := Table.place row t.rows } : Table).Conforms := by
  refine ht.withRows fun r hr => ?_
  rcases Table.mem_place hr with rfl | hr
  · exact hrow
  · exact ht.rows r hr

/-- Some rows have a cell assigned that the columns of its key keep. -/
theorem Conforms.assign (ht : t.Conforms) (p : Row → Bool) {key : String} {cell : Cell}
    (hcell : ∀ name c, t.column? name = some c → c.key = key → c.affinity.apply cell = cell) :
    ({ t with rows := t.rows.map fun r => if p r then r.set key cell else r } : Table).Conforms := by
  refine ht.withRows fun r hr => ?_
  obtain ⟨s, hs, rfl⟩ := List.mem_map.mp hr
  split
  · exact (ht.rows s hs).set hcell
  · exact ht.rows s hs

end Table

/-! ## Databases -/

/-- Every table of the database conforms. -/
def Database.Conforms (db : Database) : Prop := ∀ key t, db.table key = some t → t.Conforms

namespace Database.Conforms

variable {db after : Database}

theorem empty : Database.empty.Conforms := fun _ _ h => (nomatch h)

theorem altered (h : db.Conforms) : db.altered.Conforms := h

theorem setTable (h : db.Conforms) {t : Table} (ht : t.Conforms) (name : String) :
    (db.setTable name t).Conforms := by
  intro key u hu
  rw [table_setTable] at hu
  split at hu
  · cases hu
    exact ht
  · exact h key u hu

theorem createTable (h : db.Conforms) {name : String} {columns : List Column}
    (hinitial : ∀ c ∈ columns, c.affinity.apply c.initial = c.initial)
    (hdb : db.createTable name columns = .ok after) : after.Conforms := by
  obtain ⟨-, n, rfl⟩ := createTable_eq_ok hdb
  have ht : ({ name, columns, rows := [] } : Table).Conforms :=
    { initial := fun _ c hc => hinitial c (Table.mem_of_column? hc)
      rows := fun _ hr => (nomatch hr) }
  exact (h.setTable ht name).altered

/-- Indexes hold no cells of their own. -/
theorem createIndex (h : db.Conforms) {name table column : String}
    (hdb : db.createIndex name table column = .ok after) : after.Conforms := by
  unfold Database.createIndex at hdb
  repeat' split at hdb
  all_goals cases hdb
  exact h

theorem addColumn (h : db.Conforms) {table : String} {c : Column}
    (hinitial : c.affinity.apply c.initial = c.initial)
    (hdb : db.addColumn table c = .ok after) : after.Conforms := by
  obtain ⟨t, ht, -, hc, rfl⟩ := addColumn_eq_ok.mp hdb
  exact (h.setTable ((h _ t ht).withColumn hc hinitial) table).altered

theorem insertRow (h : db.Conforms) {table : String} {t : Table} (ht : t.Conforms) {row : Row}
    (hrow : t.RowConforms row) {onConflict : OnConflict}
    (hdb : db.insertRow table t row onConflict = .ok after) : after.Conforms := by
  unfold Database.insertRow at hdb
  split at hdb
  · cases hdb
    exact h.setTable (ht.place hrow) table
  · rename_i c _
    split at hdb
    · split at hdb
      · cases hdb
      · cases hdb
        exact h.setTable ((ht.filter fun r => !sameKey c.key row r).place hrow) table
      · cases hdb
        exact h.setTable (ht.assign _ fun name d hd hkey => hkey ▸ hrow name d hd) table
    · cases hdb
      exact h.setTable (ht.place hrow) table

theorem insert (h : db.Conforms) {table : String} {values : List (String × Cell)}
    {onConflict : OnConflict} (hdb : db.insert table values onConflict = .ok after) :
    after.Conforms := by
  obtain ⟨t, given, ht, -, -, -, hrow⟩ := exists_insertRow_of_insert hdb
  exact h.insertRow (h _ t ht) ((h _ t ht).newRow _ values) hrow

/-- Whether it assigns a column or gives a row another id. -/
theorem update (h : db.Conforms) {table column : String} {value : Cell} {cond : Condition}
    {n : Nat} (hdb : db.update table column value cond = .ok (n, after)) : after.Conforms := by
  unfold Database.update at hdb
  simp only [bind_eq_ok, find_eq_ok] at hdb
  obtain ⟨-, -, t, htable, -, -, hdb⟩ := hdb
  have ht : t.Conforms := h _ t htable
  cases hc : t.column? column with
  | none =>
      simp only [hc, Database.renumber] at hdb
      split at hdb
      · cases hdb
        exact h
      · rename_i row others hchosen
        obtain ⟨id, -, hdb⟩ := bind_eq_ok.mp hdb
        split at hdb
        · cases hdb
        · cases hdb
          have hrow : row ∈ t.rows := (List.mem_filter.mp (hchosen ▸ List.mem_cons_self)).1
          have hrenumbered : t.RowConforms { row with id } := ht.rows row hrow
          exact h.setTable ((ht.filter fun r => !cond.holds t r).place hrenumbered) table
  | some c =>
      simp only [hc] at hdb
      split at hdb
      · cases hdb
      · split at hdb
        · cases hdb
        · cases hdb
          refine h.setTable (ht.assign _ fun name d hd hkey => ?_) table
          rw [Table.column?_unique hd hc hkey]
          exact Affinity.apply_apply _ _

theorem delete (h : db.Conforms) {table : String} {cond : Condition} {n : Nat}
    (hdb : db.delete table cond = .ok (n, after)) : after.Conforms := by
  unfold Database.delete at hdb
  simp only [bind_eq_ok, find_eq_ok] at hdb
  obtain ⟨t, htable, -, -, hdb⟩ := hdb
  cases hdb
  exact h.setTable ((h _ t htable).filter _) table

theorem dropTable (h : db.Conforms) {name : String} (hdb : db.dropTable name = .ok after) :
    after.Conforms := by
  unfold Database.dropTable at hdb
  obtain ⟨-, -, hdb⟩ := bind_eq_ok.mp hdb
  split at hdb
  · cases hdb
  · cases hdb
    intro key u hu
    by_cases hkey : key = nameKey name
    · simp [hkey] at hu
    · exact h key u (by simpa [hkey] using hu)

end Database.Conforms

/-! ## What statements lead to -/

namespace Database

/-- One change of a database.  Columns that come with it begin with cells that they keep. -/
inductive Becomes (db : Database) : Database → Prop
  | createTable {name : String} {columns : List Column} {after : Database} :
      (∀ c ∈ columns, c.affinity.apply c.initial = c.initial) →
      db.createTable name columns = .ok after → Becomes db after
  | createIndex {name table column : String} {after : Database} :
      db.createIndex name table column = .ok after → Becomes db after
  | dropTable {name : String} {after : Database} :
      db.dropTable name = .ok after → Becomes db after
  | addColumn {table : String} {c : Column} {after : Database} :
      c.affinity.apply c.initial = c.initial →
      db.addColumn table c = .ok after → Becomes db after
  | insert {table : String} {values : List (String × Cell)} {onConflict : OnConflict}
      {after : Database} : db.insert table values onConflict = .ok after → Becomes db after
  | update {table column : String} {value : Cell} {cond : Condition} {n : Nat}
      {after : Database} : db.update table column value cond = .ok (n, after) → Becomes db after
  | delete {table : String} {cond : Condition} {n : Nat} {after : Database} :
      db.delete table cond = .ok (n, after) → Becomes db after

/-- What changes lead to, from a database without tables. -/
inductive Reached : Database → Prop
  | empty : Reached .empty
  | change {db after : Database} : Reached db → db.Becomes after → Reached after

variable {db after : Database}

theorem Conforms.of_becomes (h : db.Conforms) (hchange : db.Becomes after) : after.Conforms := by
  cases hchange with
  | createTable hinitial hdb => exact h.createTable hinitial hdb
  | createIndex hdb => exact h.createIndex hdb
  | dropTable hdb => exact h.dropTable hdb
  | addColumn hinitial hdb => exact h.addColumn hinitial hdb
  | insert hdb => exact h.insert hdb
  | update hdb => exact h.update hdb
  | delete hdb => exact h.delete hdb

theorem Reached.conforms (h : db.Reached) : db.Conforms := by
  induction h with
  | empty => exact .empty
  | change _ hchange ih => exact ih.of_becomes hchange

end Database

namespace Statement

/-- The statements that there are.  New columns begin with cells that they keep. -/
inductive IsFit : Statement → Prop
  | createTable (name : String) {columns : List Column} :
      (∀ c ∈ columns, c.affinity.apply c.initial = c.initial) → IsFit (createTable name columns)
  | createTableIfMissing (name : String) {columns : List Column} :
      (∀ c ∈ columns, c.affinity.apply c.initial = c.initial) →
      IsFit (createTableIfMissing name columns)
  | createIndex (name table column : String) : IsFit (createIndex name table column)
  | createIndexIfMissing (name table column : String) :
      IsFit (createIndexIfMissing name table column)
  | dropTable (name : String) : IsFit (dropTable name)
  | addColumn (table : String) {c : Column} :
      c.affinity.apply c.initial = c.initial → IsFit (addColumn table c)
  | insert (table : String) (values : List (String × Cell)) : IsFit (insert table values)
  | insertOrAssign (table : String) (values : List (String × Cell)) (key column : String) :
      IsFit (insertOrAssign table values key column)
  | insertWhole (table : String) (values : List Cell) : IsFit (insertWhole table values)
  | update (table column : String) (value : Cell) (cond : Condition) :
      IsFit (update table column value cond)

variable {s : Statement} {db after : Database}

theorem ok_of_map_some {result : Except Fault Database} (h : result.map some = .ok (some after)) :
    result = .ok after := by
  obtain ⟨_, hresult, hsome⟩ := map_eq_ok.mp h
  rw [hresult, Option.some.inj hsome]

/-- What a statement does, if it does something, is one change. -/
theorem IsFit.becomes (h : s.IsFit) (hrun : s.run db = .ok (some after)) : db.Becomes after := by
  cases h with
  | createTable name hinitial => exact .createTable hinitial (ok_of_map_some hrun)
  | createTableIfMissing name hinitial =>
      simp only [Statement.createTableIfMissing] at hrun
      split at hrun
      · cases hrun
      · exact .createTable hinitial (ok_of_map_some hrun)
  | createIndex name table column => exact .createIndex (ok_of_map_some hrun)
  | createIndexIfMissing name table column =>
      simp only [Statement.createIndexIfMissing] at hrun
      split at hrun
      · cases hrun
      · exact .createIndex (ok_of_map_some hrun)
  | dropTable name => exact .dropTable (ok_of_map_some hrun)
  | addColumn table hinitial => exact .addColumn hinitial (ok_of_map_some hrun)
  | insert table values => exact .insert (ok_of_map_some hrun)
  | insertOrAssign table values key column => exact .insert (ok_of_map_some hrun)
  | insertWhole table values =>
      obtain ⟨named, hinsert⟩ := Database.exists_insert_of_insertWhole (ok_of_map_some hrun)
      exact .insert hinsert
  | update table column value cond =>
      obtain ⟨⟨n, _⟩, hupdate, rfl⟩ := map_eq_ok.mp (ok_of_map_some hrun)
      exact .update hupdate

end Statement

namespace Database

variable {db after : Database} {access : WriteAccess} {statements : List Statement}

theorem Reached.transaction (h : db.Reached) (hs : ∀ s ∈ statements, s.IsFit)
    (hrun : transaction access statements db = .ok after) : after.Reached :=
  transaction_keeps (fun s hmem _ _ hreached hdone => hreached.change ((hs s hmem).becomes hdone))
    h (transaction_granted hrun)

/-- A store that is put together from nothing conforms. -/
theorem Conforms.of_transaction (hs : ∀ s ∈ statements, s.IsFit)
    (hrun : MessageCache.transaction access statements .empty = .ok db) : db.Conforms :=
  (Reached.empty.transaction hs hrun).conforms

end Database

end MessageCache
