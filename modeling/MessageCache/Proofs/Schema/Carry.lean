/-
# What an upgrade makes of the rows that are there

A store in the layout of a version climbs to the current one without an error, and its
rows come along: same rows, same order, same cells.  What is new in a row depends on the
column alone (`Layout.backfill`), but for the flag of an attachment, which is set iff the
row has both a name and a url for one (`Row.Attached`).

    one step       columns are appended, rows satisfy `Step.Carries`      (`Step.run_ok`)
    a climb        columns are appended, rows satisfy `Carried v`         (`InLayout.climbs`)
    an upgrade     result, rows, columns, indexes             (`ensureCurrent_carries_rows`)

`InLayout v db t` asks nothing of the cells and of the rows, and of the columns only that
they have the names of the layout; where there is no version table, its name is free.
-/
import Mathlib.Data.List.Forall2
import MessageCache.Proofs.Schema.Resume

namespace MessageCache

/-! ## Rows of older layouts -/

/-- The name of the flag that says whether there is an attachment. -/
def attachmentFlag : String := "attachment_present"

/-- What rows that are older than a column hold in it. -/
def Layout.backfill (name : String) : Cell :=
  if name = "published" then .integer 1
  else if name ∈ integerColumns then .integer 0
  else .ofString ""

/-- The row has a name and a url for an attachment. -/
def Row.Attached (row : Row) : Prop :=
  ∀ name ∈ ["attachment_name", "attachment_url"],
    row.cell name ≠ .null ∧ row.cell name ≠ .ofString ""

instance (row : Row) : Decidable row.Attached := by
  unfold Row.Attached
  infer_instance

/-- A row of the layout of a version, and what has become of it in the current one. -/
structure Carried (v : Nat) (r r' : Row) : Prop where
  id : r'.id = r.id
  kept : ∀ name ∈ Layout.releasedNames v, r'.cell name = r.cell name
  filled : ∀ u, v < u → ∀ name ∈ Layout.added u, name ≠ attachmentFlag →
    r'.cell name = Layout.backfill name
  present : v < Layout.currentVersion → r'.cell attachmentFlag = .ofBool r'.Attached

/-! ## Columns of a step -/

namespace Step

def newColumn? : Change → Option Column
  | .addColumn c => some c
  | .assign _ _ _ => none

/-- The columns that a step adds. -/
def columns (s : Step) : List Column := s.changes.filterMap newColumn?

variable {s : Step} {v : Nat}

/-- The columns of a step are those that its target adds to the layout. -/
theorem keys_perm (hs : leadingFrom? v = some s) :
    (s.columns.map Column.key).Perm (Layout.added (v + 1)) := by
  have hall : ∀ s ∈ all, (s.columns.map Column.key).Perm (Layout.added s.target) := by decide
  rw [← target_of_leadingFrom? hs]
  exact hall s (mem_of_leadingFrom? hs)

theorem nodup_keys (hs : leadingFrom? v = some s) : (s.columns.map Column.key).Nodup := by
  have hall : ∀ s ∈ all, (s.columns.map Column.key).Nodup := by decide
  exact hall s (mem_of_leadingFrom? hs)

theorem initial_eq (hs : leadingFrom? v = some s) {c : Column} (hc : c ∈ s.columns)
    (hflag : c.key ≠ attachmentFlag) : c.initial = Layout.backfill c.key := by
  have hall : ∀ s ∈ all, ∀ c ∈ s.columns, c.key ≠ attachmentFlag →
      c.initial = Layout.backfill c.key := by decide
  exact hall s (mem_of_leadingFrom? hs) c hc hflag

end Step

theorem Layout.nodup_releasedNames {v : Nat} (hv : v ≤ currentVersion) :
    (releasedNames v).Nodup := by
  have hall : ∀ v < 6, (releasedNames v).Nodup := by decide
  exact hall v (Nat.lt_succ_of_le hv)

/-- The table has the columns of the layout of a version, whatever their order. -/
def Table.HasLayout (v : Nat) (t : Table) : Prop :=
  (t.columns.map Column.key).Perm (Layout.releasedNames v)

section Steps

variable {s : Step} {v : Nat} {t u : Table}

theorem Table.HasLayout.step (h : t.HasLayout v) (hs : Step.leadingFrom? v = some s)
    (hu : u.columns = t.columns ++ s.columns) : u.HasLayout (v + 1) := by
  unfold HasLayout
  rw [hu, List.map_append]
  exact List.Perm.append h (Step.keys_perm hs)

/-- There is room for the columns of the next step. -/
theorem Table.HasLayout.room (h : t.HasLayout v) (hs : Step.leadingFrom? v = some s) :
    ((t.columns ++ s.columns).map Column.key).Nodup ∧
      (t.columns ++ s.columns).length ≤ Database.mostColumns := by
  have hv := Step.lt_of_leadingFrom? hs
  have hperm : ((t.columns ++ s.columns).map Column.key).Perm (Layout.releasedNames (v + 1)) := by
    rw [List.map_append]
    exact List.Perm.append h (Step.keys_perm hs)
  refine ⟨hperm.nodup_iff.mpr (Layout.nodup_releasedNames hv), ?_⟩
  have hall : ∀ v < 6, (Layout.releasedNames v).length ≤ Database.mostColumns := by decide
  have hlength := hperm.length_eq
  rw [List.length_map] at hlength
  rw [hlength]
  exact hall _ (Nat.succ_lt_succ hv)

/-! ## One step -/

/-- What a step makes of a row. -/
structure Step.Carries (s : Step) (r r' : Row) : Prop where
  id : r'.id = r.id
  kept : ∀ key, key ∉ s.columns.map Column.key → r'.cell key = r.cell key
  filled : ∀ c ∈ s.columns, c.key ≠ attachmentFlag → r'.cell c.key = c.initial
  flagged : attachmentFlag ∈ s.columns.map Column.key →
    r'.cell attachmentFlag = .ofBool r'.Attached

/-- New columns without a flag among them. -/
theorem Step.carries_fill (hs : leadingFrom? v = some s)
    (hflag : attachmentFlag ∉ s.columns.map Column.key) (r : Row) :
    s.Carries r (r.fill s.columns) where
  id := Row.id_fill
  kept _ hkey := Row.cell_fill_of_notMem hkey
  filled _ hc _ := Row.cell_fill_of_mem (nodup_keys hs) hc
  flagged h := absurd h hflag

/-- In a column of any affinity a text is not empty if it is not the empty text. -/
theorem ne_empty_holds (a : Affinity) (cell : Cell) :
    Comparison.ne.holds cell (a.apply (.ofString "")) =
      decide (cell ≠ .null ∧ cell ≠ .ofString "") := by
  have hempty : a.apply (.ofString "") = .text [] := by cases a <;> rfl
  have hbytes : Cell.ofString "" = .text [] := rfl
  rw [hempty, hbytes]
  cases cell with
  | null => rfl
  | text b =>
      simp [Comparison.holds, Comparison.test, Cell.same, Cell.le, Cell.rank, Cell.magnitude,
        Cell.content]
  | integer _ | real _ | blob _ =>
      simp [Comparison.holds, Comparison.test, Cell.same, Cell.le, Cell.rank]

/-- The condition of the last step, in a table with the columns that it names. -/
theorem inferredPresent_holds (h : ∀ name ∈ ["attachment_name", "attachment_url"],
      (t.column? name).isSome) (r : Row) :
    Step.inferredPresent.holds t r = decide r.Attached := by
  obtain ⟨c, hc⟩ := Option.isSome_iff_exists.mp (h _ List.mem_cons_self)
  obtain ⟨d, hd⟩ := Option.isSome_iff_exists.mp (h _ (List.mem_cons_of_mem _ List.mem_cons_self))
  have hckey : c.key = "attachment_name" := Table.key_of_column? hc
  have hdkey : d.key = "attachment_url" := Table.key_of_column? hd
  simp only [Step.inferredPresent, Condition.holds, hc, hd, hckey, hdkey, ne_empty_holds]
  simp [Row.Attached, Bool.decide_and]

/-- Steps that only add columns. -/
theorem Step.run_columns_ok {db : Database} (hs : leadingFrom? v = some s)
    (hstatements : s.statements = s.columns.map (Statement.addColumn messagesTable))
    (ht : db.table? messagesTable = some t) (hlayout : t.HasLayout v) :
    ∃ after, s.run .granted db = .ok after ∧
      after.table? messagesTable = some (t.withColumns s.columns) := by
  obtain ⟨hkeys, hmost⟩ := hlayout.room hs
  obtain ⟨after, hrun, hafter⟩ := Database.addColumns_ok ht hkeys hmost
  refine ⟨after, ?_, hafter⟩
  rw [run, hstatements]
  exact hrun

/-- The column that the last step adds. -/
def flagColumn : Column := { Layout.column attachmentFlag with initial := .integer 0 }

theorem key_flagColumn : flagColumn.key = attachmentFlag := by decide

theorem columns_attachmentPresent : Step.attachmentPresent.columns = [flagColumn] := rfl

/-- The columns that the last step names are there by then, the flag as it was added. -/
theorem column?_flag (hlayout : t.HasLayout 4) (hu : u.columns = t.columns ++ [flagColumn]) :
    u.column? attachmentFlag = some flagColumn := by
  have hold : t.columns.find? (fun c => c.key = nameKey attachmentFlag) = none := by
    rw [List.find?_eq_none]
    intro c hc
    have hmem : c.key ∈ Layout.releasedNames 4 := hlayout.mem_iff.mp (List.mem_map_of_mem hc)
    have hflag : nameKey attachmentFlag ∉ Layout.releasedNames 4 := by decide
    simp only [decide_eq_true_eq]
    intro hkey
    exact hflag (hkey ▸ hmem)
  rw [Table.column?, hu, List.find?_append, hold]
  rfl

theorem flagged_known (hlayout : u.HasLayout 5) :
    ∀ name ∈ [attachmentFlag, "attachment_name", "attachment_url"],
      nameKey name ∈ u.columns.map Column.key := by
  intro name hname
  have hall : ∀ name ∈ [attachmentFlag, "attachment_name", "attachment_url"],
      nameKey name ∈ Layout.releasedNames 5 := by decide
  exact hlayout.mem_iff.mpr (hall name hname)

/-- The new flag of a row, after it was set where that is due. -/
theorem Step.carries_flag (r : Row) :
    attachmentPresent.Carries r
      (if (r.fill [flagColumn]).Attached then (r.fill [flagColumn]).set attachmentFlag (.integer 1)
        else r.fill [flagColumn]) where
  id := by
    split
    · exact Row.id_fill
    · exact Row.id_fill
  kept := by
    intro key hkey
    have hne : key ≠ attachmentFlag := fun h => hkey (List.mem_singleton.mpr h)
    split
    · rw [Row.cell_set, if_neg hne]
      exact Row.cell_fill_of_notMem hkey
    · exact Row.cell_fill_of_notMem hkey
  filled := by
    intro c hc hne
    rw [columns_attachmentPresent, List.mem_singleton] at hc
    subst hc
    exact absurd rfl hne
  flagged := by
    intro _
    have hname : "attachment_name" ≠ attachmentFlag := by decide
    have hurl : "attachment_url" ≠ attachmentFlag := by decide
    split
    · rename_i h
      have hset : ((r.fill [flagColumn]).set attachmentFlag (.integer 1)).Attached := by
        simpa [Row.Attached, hname, hurl] using h
      rw [Row.cell_set, if_pos rfl, decide_eq_true hset]
      rfl
    · rename_i h
      have hnew : (r.fill [flagColumn]).cell flagColumn.key = .ofBool false :=
        Row.cell_fill_of_mem (by decide) (List.mem_singleton.mpr rfl)
      rw [key_flagColumn] at hnew
      rw [decide_eq_false h, hnew]

/-- The last step sets the flag that it adds. -/
theorem Step.run_attachmentPresent_ok {db : Database} (ht : db.table? messagesTable = some t)
    (hlayout : t.HasLayout 4) :
    ∃ after, attachmentPresent.run .granted db = .ok after ∧
      after.table? messagesTable = some (Database.assigned (t.withColumns [flagColumn])
        attachmentFlag (.integer 1) inferredPresent) := by
  have hs : leadingFrom? 4 = some attachmentPresent := rfl
  obtain ⟨hkeys, hmost⟩ := hlayout.room hs
  obtain ⟨mid, hadd, hmid⟩ := Database.addColumns_ok ht hkeys hmost
  have hcolumns := t.columns_withColumns [flagColumn]
  have hmissing : (t.withColumns [flagColumn]).missing?
      (attachmentFlag :: inferredPresent.columns) = none := by
    rw [Table.missing?_eq_none (by decide)]
    exact flagged_known (hlayout.step hs hcolumns)
  have hupdate := Database.update_eq_ok (.integer 1) inferredPresent hmid (by decide) hmissing
    (column?_flag hlayout hcolumns) (by decide) (by decide)
  refine ⟨_, ?_, Database.table?_setTable_self mid messagesTable _⟩
  show transaction .granted (attachmentPresent.columns.map (Statement.addColumn messagesTable) ++
    [Statement.update messagesTable attachmentFlag (.integer 1) inferredPresent]) db = _
  rw [transaction_append, hadd, ok_bind, transaction_cons]
  simp only [Statement.update, Statement.always, hupdate]
  rfl

/-- In the layout of its version a step succeeds. -/
theorem Step.run_ok {db : Database} (hs : leadingFrom? v = some s)
    (ht : db.table? messagesTable = some t) (hlayout : t.HasLayout v) :
    ∃ after u, s.run .granted db = .ok after ∧ after.table? messagesTable = some u ∧
      u.columns = t.columns ++ s.columns ∧ List.Forall₂ s.Carries t.rows u.rows := by
  have hmem := mem_of_leadingFrom? hs
  have horigin := origin_of_leadingFrom? hs
  by_cases hlast : s = attachmentPresent
  · subst hlast
    subst horigin
    obtain ⟨after, hrun, hafter⟩ := run_attachmentPresent_ok ht hlayout
    have hcolumns := t.columns_withColumns [flagColumn]
    refine ⟨after, _, hrun, hafter, hcolumns, ?_⟩
    unfold Database.assigned
    rw [Table.rows_withColumns, List.map_map, List.forall₂_map_right_iff, List.forall₂_same]
    intro r _
    have hattached : ∀ name ∈ ["attachment_name", "attachment_url"],
        ((t.withColumns [flagColumn]).column? name).isSome := by
      intro name hname
      have hknown := flagged_known (hlayout.step hs hcolumns)
      exact Table.isSome_column?.mpr (hknown name (List.mem_cons_of_mem _ hname))
    simp only [Function.comp_apply, inferredPresent_holds hattached, decide_eq_true_eq]
    exact carries_flag r
  · have hstatements : s.statements = s.columns.map (Statement.addColumn messagesTable) ∧
        attachmentFlag ∉ s.columns.map Column.key := by
      simp only [all, List.mem_cons, List.not_mem_nil, or_false] at hmem
      rcases hmem with rfl | rfl | rfl | rfl | rfl
      · exact ⟨rfl, by decide⟩
      · exact ⟨rfl, by decide⟩
      · exact ⟨rfl, by decide⟩
      · exact ⟨rfl, by decide⟩
      · exact absurd rfl hlast
    obtain ⟨after, hrun, hafter⟩ := run_columns_ok hs hstatements.1 ht hlayout
    refine ⟨after, _, hrun, hafter, t.columns_withColumns _, ?_⟩
    rw [Table.rows_withColumns, List.forall₂_map_right_iff, List.forall₂_same]
    intro r _
    exact carries_fill hs hstatements.2 r

end Steps

/-! ## From a version to the current one -/

theorem Layout.mem_releasedNames {u v : Nat} (h : u ≤ v) {name : String} (hname : name ∈ added u) :
    name ∈ releasedNames v := by
  induction v with
  | zero =>
      obtain rfl : u = 0 := Nat.le_zero.mp h
      exact hname
  | succ v ih =>
      rcases Nat.lt_or_eq_of_le h with hlt | rfl
      · exact List.mem_append_left _ (ih (Nat.le_of_lt_succ hlt))
      · exact List.mem_append_right _ hname

/-- Names of columns are their keys. -/
theorem Layout.disjoint_added {s : Step} {v : Nat} (hs : Step.leadingFrom? v = some s)
    {name : String} (hname : name ∈ releasedNames v) : name ∉ s.columns.map Column.key := by
  have hnodup := Layout.nodup_releasedNames (Step.lt_of_leadingFrom? hs)
  rw [releasedNames, List.nodup_append] at hnodup
  intro hmem
  exact hnodup.2.2 name hname name ((Step.keys_perm hs).mem_iff.mp hmem) rfl

/-- A row that has come along with a step is carried on from there. -/
theorem Carried.step {s : Step} {v : Nat} {r mid r' : Row}
    (hs : Step.leadingFrom? v = some s) (hmid : s.Carries r mid) (h : Carried (v + 1) mid r') :
    Carried v r r' where
  id := h.id.trans hmid.id
  kept := by
    intro name hname
    rw [h.kept name (List.mem_append_left _ hname)]
    exact hmid.kept name (Layout.disjoint_added hs hname)
  filled := by
    intro u hu name hname hflag
    rcases Nat.lt_or_eq_of_le hu with hlt | rfl
    · exact h.filled u hlt name hname hflag
    · -- the column is one of this step
      obtain ⟨c, hc, rfl⟩ := List.mem_map.mp ((Step.keys_perm hs).mem_iff.mpr hname)
      rw [h.kept c.key (List.mem_append_right _ hname), hmid.filled c hc hflag,
        Step.initial_eq hs hc hflag]
  present := by
    intro _
    rcases Nat.lt_or_eq_of_le (Step.lt_of_leadingFrom? hs) with hlt | hlast
    · exact h.present hlt
    · obtain rfl : v = 4 := Nat.succ.inj hlast
      have hkept : ∀ name ∈ Layout.releasedNames 5, r'.cell name = mid.cell name := h.kept
      have hattached : r'.Attached ↔ mid.Attached := by
        have hname := hkept "attachment_name" (by decide)
        have hurl := hkept "attachment_url" (by decide)
        simp [Row.Attached, hname, hurl]
      have hnew : attachmentFlag ∈ s.columns.map Column.key :=
        (Step.keys_perm hs).mem_iff.mpr (by decide)
      rw [hkept attachmentFlag (by decide), hmid.flagged hnew]
      simp only [hattached]

/-- A store in the layout of a version: the messages have its columns, in any order and
with anything in them, and the version is the one on record. -/
structure InLayout (v : Nat) (db : Database) (t : Table) : Prop where
  messages : db.table? messagesTable = some t
  layout : t.HasLayout v
  version : storedVersion db = .ok (some v)
  record : ∀ u, db.table? versionTable = some u → u.name = versionTable ∧ IsVersionTable u
  room : db.table? versionTable = none → db.hasIndex versionTable = false

section Upgrades

variable {v : Nat} {s : Step} {db : Database} {t : Table}

theorem InLayout.resumable (h : InLayout v db t) : Resumable db where
  messages := hasMessages_of_storedVersion h.version
  named u hu := (h.record u hu).1
  integer u _ hu hc := (h.record u hu).2.affinity hc

/-- A step leads from a layout to the next one. -/
theorem InLayout.step (h : InLayout v db t) (hs : Step.leadingFrom? v = some s) :
    ∃ after u, s.apply .granted db = .ok after ∧ InLayout (v + 1) after u ∧
      u.columns = t.columns ++ s.columns ∧ List.Forall₂ s.Carries t.rows u.rows ∧
      after.indexes = db.indexes := by
  obtain ⟨mid, u, hrun, hmid, hcolumns, hrows⟩ := Step.run_ok hs h.messages h.layout
  have hchanges := Step.run_confined hrun
  have hsame := hchanges.table?_of_ne messagesTable_ne_versionTable.symm
  obtain ⟨after, hrecord⟩ := recordVersion_ok mid
    (fun w hw => (h.record w (hsame ▸ hw)).2)
    (fun hnone => by
      rw [Database.hasIndex, hchanges.indexes]
      exact h.room (hsame ▸ hnone)) s.target
  have happly : s.apply .granted db = .ok after := Step.apply_eq_ok.mpr ⟨mid, hrun, hrecord⟩
  have hconfined := recordVersion_confined hrecord
  obtain ⟨hresumable, hversion⟩ := h.resumable.apply hs happly
  refine ⟨after, u, happly, ⟨?_, h.layout.step hs hcolumns, hversion, ?_, ?_⟩, hcolumns, hrows, ?_⟩
  · rw [hconfined.table?_of_ne messagesTable_ne_versionTable, hmid]
  · intro w hw
    refine ⟨hresumable.named w hw, ?_⟩
    obtain ⟨w', hw', -, hold, hnew⟩ := exists_recorded hrecord
    obtain rfl : w = w' := Option.some.inj (hw.symm.trans hw')
    unfold IsVersionTable
    cases ht : mid.table? versionTable with
    | none => rw [(hnew ht).2]
    | some old =>
        rw [(hold old ht).2]
        exact (h.record old (hsame ▸ ht)).2
  · intro hnone
    obtain ⟨w, hw, -⟩ := exists_recorded hrecord
    exact nomatch hnone.symm.trans hw
  · rw [hconfined.indexes, hchanges.indexes]

/-- Rows that come along with one step and then with the others. -/
theorem forall₂_carried_step {rows mid rows' : List Row} (hs : Step.leadingFrom? v = some s)
    (hmid : List.Forall₂ s.Carries rows mid) (h : List.Forall₂ (Carried (v + 1)) mid rows') :
    List.Forall₂ (Carried v) rows rows' := by
  induction hmid generalizing rows' with
  | nil =>
      cases h
      exact .nil
  | cons hr _ ih =>
      cases h with
      | cons hr' hrest => exact .cons (Carried.step hs hr hr') (ih hrest)

/-- The columns that the steps from a version on add. -/
def columnsFrom (v : Nat) : List Column := (Step.all.drop v).flatMap Step.columns

theorem columnsFrom_eq (hs : Step.leadingFrom? v = some s) :
    columnsFrom v = s.columns ++ columnsFrom (v + 1) := by
  rw [Step.leadingFrom?_eq] at hs
  obtain ⟨hv, rfl⟩ := List.getElem?_eq_some_iff.mp hs
  unfold columnsFrom
  rw [List.drop_eq_getElem_cons hv, List.flatMap_cons]

/-- A store in the layout of a version climbs to the current one. -/
theorem InLayout.climbs (h : InLayout v db t) (hv : v ≤ Layout.currentVersion) :
    ∃ after u, Climbs .granted v db Layout.currentVersion after ∧
      InLayout Layout.currentVersion after u ∧ u.columns = t.columns ++ columnsFrom v ∧
      List.Forall₂ (Carried v) t.rows u.rows ∧ after.indexes = db.indexes := by
  -- by induction on the number of steps ahead
  obtain ⟨n, hn⟩ : ∃ n, v + n = Layout.currentVersion := ⟨_, Nat.add_sub_cancel' hv⟩
  induction n generalizing v db t with
  | zero =>
      obtain rfl : v = Layout.currentVersion := hn
      refine ⟨db, t, .stay, h, (List.append_nil _).symm, ?_, rfl⟩
      rw [List.forall₂_same]
      intro r _
      refine ⟨rfl, fun _ _ => rfl, ?_, fun hlt => absurd hlt (Nat.lt_irrefl _)⟩
      intro u hu name hname
      have hnone : Layout.added u = [] := by
        obtain ⟨k, rfl⟩ : ∃ k, u = 6 + k := ⟨u - 6, by have : 5 < u := hu; omega⟩
        rw [Nat.add_comm]
        rfl
      rw [hnone] at hname
      cases hname
  | succ n ih =>
      obtain ⟨s, hs⟩ := Step.exists_leadingFrom? (v := v) (by omega)
      obtain ⟨mid, u, happly, hmid, hcolumns, hrows, hindexes⟩ := h.step hs
      obtain ⟨after, w, hclimbs, hafter, hcolumns', hrows', hindexes'⟩ :=
        ih hmid (by omega) (by omega)
      refine ⟨after, w, .step hs happly hclimbs, hafter, ?_,
        forall₂_carried_step hs hrows hrows', hindexes'.trans hindexes⟩
      rw [hcolumns', hcolumns, columnsFrom_eq hs, List.append_assoc]

/-- The end of an upgrade of a store in the layout of a version. -/
theorem ensureCurrent_of_climbs {after : Database} (h : InLayout v db t)
    (hv : v ≤ Layout.currentVersion)
    (hclimbs : Climbs .granted v db Layout.currentVersion after) :
    (ensureCurrent .granted db).result = .ok Layout.currentVersion ∧
      (ensureCurrent .granted db).database = after := by
  rw [ensureCurrent_eq_climb h.version hv, hclimbs.climb_eq, Nat.sub_self]
  exact ⟨rfl, rfl⟩

/-- A new store has its columns in an order of its own. -/
theorem exists_fresh : ∃ f, (ensureCurrent .granted .empty).database.table? messagesTable = some f ∧
    f.columns = Layout.current := ⟨_, rfl, rfl⟩

/-- An upgrade loses nothing: it succeeds, the rows come along in their order, the columns
are those of a new store, and the indexes stay. -/
theorem ensureCurrent_carries_rows (h : InLayout v db t) (hv : v ≤ Layout.currentVersion) :
    ∃ u f, (ensureCurrent .granted db).result = .ok Layout.currentVersion ∧
      (ensureCurrent .granted db).database.table? messagesTable = some u ∧
      List.Forall₂ (Carried v) t.rows u.rows ∧
      (ensureCurrent .granted .empty).database.table? messagesTable = some f ∧
      (u.columns.map Column.key).Perm (f.columns.map Column.key) ∧
      (ensureCurrent .granted db).database.indexes = db.indexes ∧
      storedVersion (ensureCurrent .granted db).database = .ok (some Layout.currentVersion) := by
  obtain ⟨after, u, hclimbs, hafter, -, hrows, hindexes⟩ := h.climbs hv
  obtain ⟨hresult, hdatabase⟩ := ensureCurrent_of_climbs h hv hclimbs
  obtain ⟨f, hf, hfcolumns⟩ := exists_fresh
  rw [hdatabase]
  have hfresh : (Layout.releasedNames 5).Perm (Layout.current.map Column.key) := by decide
  exact ⟨u, f, hresult, hafter.messages, hrows, hf, hfcolumns ▸ hafter.layout.trans hfresh,
    hindexes, hafter.version⟩

end Upgrades

/-- A store of version 0 with a message whose text is null, and with its index. -/
def versionZeroTables : List Statement :=
  [.createTable messagesTable ((Layout.released 0).map Layout.nullable),
    .createIndex topicIndex messagesTable "topic",
    .insert messagesTable [("id", .ofString "a"), ("time", .integer 5), ("topic", .ofString "t")]]

theorem ensureCurrent_carries_rows_versionZero :
    ∃ db t u, transaction .granted versionZeroTables .empty = .ok db ∧ InLayout 0 db t ∧
      t.rows.length = 1 ∧ (ensureCurrent .granted db).result = .ok Layout.currentVersion ∧
      (ensureCurrent .granted db).database.table? messagesTable = some u ∧
      List.Forall₂ (Carried 0) t.rows u.rows ∧
      (ensureCurrent .granted db).database.hasIndex topicIndex = true := by
  have h : ∃ db t, transaction .granted versionZeroTables .empty = .ok db ∧ InLayout 0 db t ∧
      t.rows.length = 1 ∧ db.hasIndex topicIndex = true := by
    refine ⟨_, _, rfl, ⟨rfl, ?_, rfl, ?_, fun _ => rfl⟩, rfl, rfl⟩
    · unfold Table.HasLayout
      decide
    · intro u hu
      cases hu
  obtain ⟨db, t, hdb, hlayout, hlength, hindex⟩ := h
  obtain ⟨u, -, hresult, hu, hrows, -, -, hindexes, -⟩ :=
    ensureCurrent_carries_rows hlayout (Nat.zero_le _)
  refine ⟨db, t, u, hdb, hlayout, hlength, hresult, hu, hrows, ?_⟩
  rw [Database.hasIndex, hindexes]
  exact hindex

end MessageCache
