/-
# What opening makes of a store

A store is opened on nothing at all, or on the layout of a version and its record
(`Openable`).  What there is then is a store of the current version, in whose layout it
stays whatever else is in its file:

    nothing                   the tables of a new store are made
    the layout of v < 5       the steps from v on are taken
    the layout of 5           nothing happens

Whoever knows the tables by their edition sees what has happened: every upgrade that
changes something moves the edition on (`Openable.opens`).
-/
import MessageCache.Proofs.Schema.Carry
import MessageCache.Proofs.Schema.Detection
import MessageCache.Proofs.Table.Edition

namespace MessageCache

section Upgrades

variable {db mid other after : Database} {t : Table} {v k : Nat} {access : WriteAccess}

/-! ## Editions of an upgrade -/

theorem Change.edition_le {c : Change} (h : c.statement.run db = .ok (some after)) :
    db.edition ≤ after.edition := by
  cases c with
  | addColumn c =>
      obtain ⟨_, hdb, hsome⟩ := map_eq_ok.mp h
      cases hsome
      rw [Database.edition_addColumn hdb]
      exact Nat.le_succ _
  | assign column value cond =>
      obtain ⟨_, hdb, hsome⟩ := map_eq_ok.mp h
      cases hsome
      obtain ⟨⟨n, _⟩, hupdate, rfl⟩ := map_eq_ok.mp hdb
      exact Nat.le_of_eq (Database.edition_update hupdate).symm

theorem edition_le_of_changes {changes : List Change}
    (h : transaction .granted (changes.map Change.statement) db = .ok after) :
    db.edition ≤ after.edition := by
  refine transaction_keeps (P := fun mid => db.edition ≤ mid.edition) ?_ (Nat.le_refl _) h
  intro statement hmem mid later hmid hrun
  obtain ⟨c, -, rfl⟩ := List.mem_map.mp hmem
  exact Nat.le_trans hmid (Change.edition_le hrun)

theorem edition_le_of_recordVersion {version : Nat}
    (h : transaction .granted (recordVersion version) db = .ok after) :
    db.edition ≤ after.edition := by
  obtain ⟨mid, hmid, hinsert⟩ := recordVersion_eq_ok.mp h
  rw [Database.edition_insert hinsert]
  rcases hmid with ⟨-, rfl⟩ | hcreate
  · exact Nat.le_refl _
  · rw [Database.edition_createTable hcreate]
    exact Nat.le_succ _

theorem Step.edition_lt {s : Step} (hs : s ∈ all) (h : s.apply access db = .ok after) :
    db.edition < after.edition := by
  obtain ⟨changed, hrun, hrecord⟩ := Step.apply_eq_ok.mp (Step.apply_granted h)
  obtain ⟨c, rest, hchanges⟩ := exists_addColumn hs
  unfold run statements at hrun
  rw [hchanges, List.map_cons, transaction_cons, bind_eq_ok] at hrun
  obtain ⟨_, hfirst, hrest⟩ := hrun
  obtain ⟨added, hadd, rfl⟩ := map_eq_ok.mp hfirst
  calc db.edition
    _ < added.edition := by
      rw [Database.edition_addColumn hadd]
      exact Nat.lt_succ_self _
    _ ≤ changed.edition := edition_le_of_changes hrest
    _ ≤ after.edition := edition_le_of_recordVersion hrecord

theorem Climbs.edition_le (h : Climbs access v db k after) : db.edition ≤ after.edition := by
  induction h with
  | stay => exact Nat.le_refl _
  | step hs happly _ ih =>
      exact Nat.le_trans
        (Nat.le_of_lt (Step.edition_lt (Step.mem_of_leadingFrom? hs) happly)) ih

/-- A climb that gets anywhere moves the edition on. -/
theorem Climbs.edition_lt (h : Climbs access v db k after) (hlt : v < k) :
    db.edition < after.edition := by
  cases h with
  | stay => exact absurd hlt (Nat.lt_irrefl _)
  | step hs happly hrest =>
      exact Nat.lt_of_lt_of_le (Step.edition_lt (Step.mem_of_leadingFrom? hs) happly)
        hrest.edition_le

/-! ## Stores that are opened -/

theorem Database.SameTables.storedVersion_eq (h : db.SameTables other) :
    storedVersion other = storedVersion db := by
  unfold storedVersion hasTableNamed select find table?
  rw [h.table]

theorem InLayout.sameTables (h : InLayout v db t) (hsame : db.SameTables other) :
    InLayout v other t where
  messages := (hsame.table?_eq _).trans h.messages
  layout := h.layout
  version := hsame.storedVersion_eq.trans h.version
  record := by
    rw [hsame.table?_eq]
    exact h.record
  room := by
    rw [hsame.table?_eq, Database.hasIndex, hsame.indexes]
    exact h.room

/-- There is nothing, or the layout of a version and its record. -/
inductive Openable (db : Database) : Prop
  | blank (h : Database.empty.SameTables db)
  | layout {v : Nat} {t : Table} (h : InLayout v db t) (hv : v ≤ Layout.currentVersion)

theorem Openable.sameTables (h : Openable db) (hsame : db.SameTables other) : Openable other := by
  cases h with
  | blank h => exact .blank (h.trans hsame)
  | layout h hv => exact .layout (h.sameTables hsame) hv

/-- An upgrade that makes a current store of a database. -/
structure Upgrade.Opens (u : Upgrade) (db : Database) : Prop where
  result : u.result = .ok Layout.currentVersion
  layout : ∃ t, InLayout Layout.currentVersion u.database t
  changed : u.changed = true → db.edition < u.database.edition
  unchanged : u.changed = false → u.database = db

theorem opens_of_blank (h : Database.empty.SameTables db) :
    (ensureCurrent .granted db).Opens db := by
  obtain ⟨table, indexes, edition, pages, free, writes⟩ := db
  obtain ⟨htable, hindexes, hedition⟩ := h
  dsimp only at htable hindexes hedition
  subst htable hindexes hedition
  refine ⟨rfl, ⟨_, rfl, ?_, rfl, ?_, ?_⟩, ?_, ?_⟩
  · unfold Table.HasLayout
    decide
  · intro u hu
    cases hu
    exact ⟨rfl, rfl⟩
  · intro hnone
    cases hnone
  · intro _
    show 0 < 3
    decide
  · intro hunchanged
    cases hunchanged

/-- Steps that are taken are reported as changes. -/
theorem changed_of_reported {u : Upgrade} (hlt : v < Layout.currentVersion)
    (hu : u.progress = reported v Layout.currentVersion ++ [.upToDate Layout.currentVersion]) :
    u.changed = true := by
  obtain ⟨s, hs⟩ := Step.exists_leadingFrom? hlt
  rw [Upgrade.changed, hu, reported_step hs hlt]
  rfl

theorem opens_of_layout (h : InLayout v db t) (hv : v ≤ Layout.currentVersion) :
    (ensureCurrent .granted db).Opens db := by
  obtain ⟨after, u, hclimbs, hafter, -⟩ := h.climbs hv
  obtain ⟨hresult, hdatabase, hprogress⟩ := hclimbs.climb_is
  rw [ensureCurrent_eq_climb h.version hv]
  refine ⟨hresult, ⟨u, hdatabase ▸ hafter⟩, ?_, ?_⟩
  · intro hchanged
    rcases Nat.lt_or_eq_of_le hv with hlt | rfl
    · rw [hdatabase]
      exact hclimbs.edition_lt hlt
    · rw [Upgrade.changed, hprogress, reported_self] at hchanged
      cases hchanged
  · intro hunchanged
    rcases Nat.lt_or_eq_of_le hv with hlt | rfl
    · rw [changed_of_reported hlt hprogress] at hunchanged
      cases hunchanged
    · rw [hdatabase]
      exact hclimbs.eq_of_le (Nat.le_refl _)

/-- Whatever a store is opened on, it is opened as a current one. -/
theorem Openable.opens (h : Openable db) : (ensureCurrent .granted db).Opens db := by
  cases h with
  | blank h => exact opens_of_blank h
  | layout h hv => exact opens_of_layout h hv

end Upgrades

end MessageCache
