/-
# What is decided on when a store with messages is opened

The version table of such a store may hold anything, and what the upgrade comes to is
decided by the record alone:

    a version table is listed, and no version is on record    the store is corrupt
    a version newer than the current one is                   it is not supported
    any other version is, or no version table is listed       the steps from it, or from 0

In the first two cases nothing happens (`Decided`).  In the last the steps succeed one
after the other or one of them fails; and once all have succeeded the store is a current
one, so that the next upgrade has nothing to do.

That last point is where the name of the version table comes in.  A table of another
spelling is written to and not listed.  The store then has version 0 after all its steps
as it had before them, and the next upgrade begins with the first step again and fails,
since its columns are there.  `decidesVersion_iff` says that nothing else is in the way.
-/
import MessageCache.Proofs.Schema.OnRecord

namespace MessageCache

/-! ## The rows beside the record -/

/-- The rows of the version table beside the record. -/
def Database.otherRecords (db : Database) : List Row := (db.table? versionTable).elim [] otherRows

/-- If there are rows in the version table, there is the record. -/
def Database.HasRecord (db : Database) : Prop :=
  ∀ t, db.table? versionTable = some t → recordRows t = [] → t.rows = []

section OtherRecords

variable {access : WriteAccess} {db after : Database} {s : Step} {v k version : Nat}

theorem Database.HasRecord.of_record? {cell : Cell} (h : db.record? = some cell) :
    db.HasRecord := by
  intro t ht hrows
  obtain ⟨u, c, r, hu, -, hc, -⟩ := exists_row_of_record? h
  obtain rfl : t = u := Option.some.inj (ht.symm.trans hu)
  rw [record?_eq ht hc, hrows] at h
  cases h

theorem Database.HasRecord.congr (h : db.HasRecord)
    (ht : after.table? versionTable = db.table? versionTable) :
    after.HasRecord ∧ after.otherRecords = db.otherRecords := by
  unfold Database.HasRecord Database.otherRecords
  rw [ht]
  exact ⟨h, rfl⟩

theorem Database.HasRecord.insert (h : db.HasRecord)
    (hinsert : db.insert versionTable (recordValues version) (.assign "id" "version") =
      .ok after) :
    after.HasRecord ∧ after.otherRecords = db.otherRecords := by
  obtain ⟨t, given, ht, -⟩ := Database.exists_insertRow_of_insert hinsert
  obtain ⟨hmissing, hid, rfl⟩ := insert_record_eq_ok ht hinsert
  have hholds : HoldsVersion version _ := holdsVersion_recordedRows hmissing hid
  constructor
  · intro u hu hrows
    rw [Database.table?_setTable_self] at hu
    cases hu
    exact absurd hrows hholds.nonempty
  · rw [Database.otherRecords, Database.otherRecords, Database.table?_setTable_self, ht]
    exact otherRows_recordedRows version hid (h t ht)

/-- To record a version changes no other row. -/
theorem Database.HasRecord.recordVersion (h : db.HasRecord)
    (hrecord : transaction .granted (recordVersion version) db = .ok after) :
    after.HasRecord ∧ after.otherRecords = db.otherRecords := by
  obtain ⟨mid, ⟨-, rfl⟩ | hcreate, hinsert⟩ := recordVersion_eq_ok.mp hrecord
  · exact h.insert hinsert
  · -- there are no rows in a new table
    have hmid := Database.table?_createTable hcreate
    have hempty : mid.HasRecord := by
      intro t ht _
      obtain rfl := Option.some.inj (hmid.symm.trans ht)
      rfl
    obtain ⟨hafter, hothers⟩ := hempty.insert hinsert
    refine ⟨hafter, hothers.trans ?_⟩
    rw [Database.otherRecords, Database.otherRecords, hmid, (Database.createTable_eq_ok hcreate).1]
    rfl

theorem Database.HasRecord.apply (h : db.HasRecord) (hs : s.apply access db = .ok after) :
    after.HasRecord ∧ after.otherRecords = db.otherRecords := by
  obtain ⟨mid, hrun, hrecord⟩ := Step.apply_eq_ok.mp (Step.apply_granted hs)
  obtain ⟨hmid, hothers⟩ :=
    h.congr ((Step.run_confined hrun).table?_of_ne messagesTable_ne_versionTable.symm)
  obtain ⟨hafter, hothers'⟩ := hmid.recordVersion hrecord
  exact ⟨hafter, hothers'.trans hothers⟩

theorem Climbs.otherRecords (h : Climbs access v db k after) (hdb : db.HasRecord) :
    after.otherRecords = db.otherRecords := by
  induction h with
  | stay => rfl
  | step _ hmid _ ih =>
      obtain ⟨hmidRecord, hothers⟩ := hdb.apply hmid
      exact (ih hmidRecord).trans hothers

end OtherRecords

/-! ## The decision -/

/-- The version that the steps start from: the one on record if a version table is listed,
and 0 otherwise. -/
def Database.StartsAt (db : Database) (n : Nat) : Prop :=
  n ≤ Layout.currentVersion ∧
    if db.hasTableNamed versionTable then db.record? = some (.integer (Int64.ofNat n)) else n = 0

/-- What is decided on when a store with messages is opened. -/
inductive Decided (access : WriteAccess) (db : Database) (u : Upgrade) : Prop
  | corrupt (hlisted : db.hasTableNamed versionTable = true)
      (hrecord : ∀ n, db.record? = some (.integer n) → ¬ InUInt32 n.toInt)
      (hu : u.Is (.error .corruptStore) db [])
  | newer {v : Nat} (hlisted : db.hasTableNamed versionTable = true)
      (hrecord : db.record? = some (.integer (Int64.ofNat v))) (hrange : InUInt32 v)
      (hlt : Layout.currentVersion < v)
      (hu : u.Is (.error (.unsupportedVersion v Layout.currentVersion)) db [])
  | started {n : Nat} (h : db.StartsAt n) (hv : storedVersion db = .ok (some n))
      (hu : u = Upgrade.climb access (Layout.currentVersion - n) n db)

section Decisions

variable {access : WriteAccess} {db : Database} {v w : Nat}

theorem versionOfCell_eq_error {cell : Cell} {e : StoreError} (h : versionOfCell cell = .error e) :
    e = .corruptStore ∧ ∀ n, cell = .integer n → ¬ InUInt32 n.toInt := by
  cases cell with
  | integer n =>
      rw [versionOfCell, versionOfInteger] at h
      split at h
      · cases h
      · rename_i hrange
        cases h
        refine ⟨rfl, ?_⟩
        rintro m ⟨⟩
        exact hrange
  | null | real _ | text _ | blob _ =>
      cases h
      refine ⟨rfl, ?_⟩
      intro n hn
      cases hn

/-- A version table with both columns either has a version on record or none. -/
theorem ensureCurrent_decided (access : WriteAccess)
    (hm : db.hasTableNamed messagesTable = true)
    (hcolumns : ∀ t, db.table? versionTable = some t → t.missing? ["version", "id"] = none) :
    Decided access db (ensureCurrent access db) := by
  cases hlisted : db.hasTableNamed versionTable with
  | false =>
      have hv := storedVersion_unnamed hm hlisted
      refine .started ⟨Nat.zero_le _, ?_⟩ hv (ensureCurrent_eq_climb hv (Nat.zero_le _))
      simp [hlisted]
  | true =>
      obtain ⟨t, ht, hname⟩ := Database.hasTableNamed_iff.mp hlisted
      have hstored := storedVersion_eq hm ht hname
      rw [hcolumns t ht] at hstored
      cases hversion : db.record?.elim (.error .corruptStore) versionOfCell with
      | error e =>
          have hrecord : e = .corruptStore ∧
              ∀ n, db.record? = some (.integer n) → ¬ InUInt32 n.toInt := by
            cases hr : db.record? with
            | none =>
                rw [hr] at hversion
                cases hversion
                exact ⟨rfl, fun n hn => nomatch hn⟩
            | some cell =>
                rw [hr] at hversion
                obtain ⟨he, hcell⟩ := versionOfCell_eq_error hversion
                exact ⟨he, fun n hn => hcell n (Option.some.inj hn)⟩
          obtain ⟨rfl, hrecord⟩ := hrecord
          rw [hversion] at hstored
          refine .corrupt hlisted hrecord ?_
          rw [ensureCurrent, hstored]
          exact ⟨rfl, rfl, rfl⟩
      | ok v =>
          rw [hversion] at hstored
          have hv : storedVersion db = .ok (some v) := hstored
          obtain ⟨hrecord, hrange⟩ := record?_of_storedVersion hv hlisted
          rcases Nat.lt_or_ge Layout.currentVersion v with hlt | hle
          · refine .newer hlisted hrecord hrange hlt ?_
            simp only [ensureCurrent, hv, if_pos hlt]
            exact ⟨rfl, rfl, rfl⟩
          · refine .started ⟨hle, ?_⟩ hv (ensureCurrent_eq_climb hv hle)
            rw [if_pos hlisted]
            exact hrecord

/-- Steps fail for what is wrong with one of them, and for nothing else. -/
theorem exists_migration_of_climb {e : StoreError} (hv : v ≤ Layout.currentVersion)
    (h : (Upgrade.climb access (Layout.currentVersion - v) v db).result = .error e) :
    ∃ k fault, e = .migration k (k + 1) fault := by
  obtain ⟨k, after, hclimbs, rfl | ⟨s, fault, hs, hfault⟩⟩ := exists_climbs access db hv
  · rw [hclimbs.climb_current] at h
    cases h
  · rw [(hclimbs.climb_failed hs hfault).1] at h
    exact ⟨k, fault, (Except.error.inj h).symm⟩

/-- An upgrade from a version succeeds by taking all steps. -/
theorem climbs_of_ok (hv : storedVersion db = .ok (some v))
    (h : (ensureCurrent access db).result = .ok w) :
    w = Layout.currentVersion ∧
      Climbs access v db Layout.currentVersion (ensureCurrent access db).database ∧
      (ensureCurrent access db).progress =
        reported v Layout.currentVersion ++ [.upToDate Layout.currentVersion] := by
  cases ensureCurrent_ends access db with
  | unread hv' hu | newer hv' hlt hu | uncreated hv' hfault hu | stopped hv' hclimbs hs hfault hu =>
      cases hu.result.symm.trans h
  | created hv' hcreate hu => cases hv.symm.trans hv'
  | climbed hv' hclimbs hu =>
      cases hv.symm.trans hv'
      refine ⟨Except.ok.inj (h.symm.trans hu.result), ?_, hu.progress⟩
      rw [hu.database]
      exact hclimbs

/-- There is nothing to be done about a current store. -/
theorem ensureCurrent_of_current (hv : storedVersion db = .ok (some Layout.currentVersion)) :
    (ensureCurrent access db).Is (.ok Layout.currentVersion) db
      [.upToDate Layout.currentVersion] := by
  rw [ensureCurrent_eq_climb hv (Nat.le_refl _), Nat.sub_self]
  exact ⟨rfl, rfl, rfl⟩

end Decisions

/-! ## The whole of it -/

/-- The record decides what becomes of a store with messages. -/
structure DecidesVersion (access : WriteAccess) (db : Database) : Prop where
  corrupt : (ensureCurrent access db).result = .error .corruptStore ↔
    db.hasTableNamed versionTable = true ∧
      ∀ n, db.record? = some (.integer n) → ¬ InUInt32 n.toInt
  unsupported : ∀ found current,
    (ensureCurrent access db).result = .error (.unsupportedVersion found current) ↔
      current = Layout.currentVersion ∧ current < found ∧ InUInt32 found ∧
        db.hasTableNamed versionTable = true ∧
        db.record? = some (.integer (Int64.ofNat found))
  /-- In these two cases nothing happens. -/
  refused : ((ensureCurrent access db).result = .error .corruptStore ∨
      ∃ found current,
        (ensureCurrent access db).result = .error (.unsupportedVersion found current)) →
    (ensureCurrent access db).database = db ∧ (ensureCurrent access db).progress = []
  /-- In all others the steps are taken. -/
  started : (ensureCurrent access db).result ≠ .error .corruptStore →
    (∀ found current,
      (ensureCurrent access db).result ≠ .error (.unsupportedVersion found current)) →
    ∃ n, db.StartsAt n ∧
      ensureCurrent access db = Upgrade.climb access (Layout.currentVersion - n) n db
  present : ∀ n, (ensureCurrent access db).result ≠ .error (.missingMigration n)
  /-- What there is after all steps. -/
  reached : ∀ w, (ensureCurrent access db).result = .ok w →
    w = Layout.currentVersion ∧
      (∃ n, db.StartsAt n ∧ (ensureCurrent access db).progress =
        reported n Layout.currentVersion ++ [.upToDate Layout.currentVersion]) ∧
      (ensureCurrent access db).database.record? =
        some (.integer (Int64.ofNat Layout.currentVersion)) ∧
      (ensureCurrent access db).database.otherRecords = db.otherRecords
  /-- Then there is nothing left to be done. -/
  settled : ∀ w, (ensureCurrent access db).result = .ok w → ∀ again,
    (ensureCurrent again (ensureCurrent access db).database).Is (.ok Layout.currentVersion)
      (ensureCurrent access db).database [.upToDate Layout.currentVersion]

section Deciding

variable {access : WriteAccess} {db after : Database} {n v k w : Nat} {u : Upgrade} {key : String}

theorem Database.StartsAt.record? (h : db.StartsAt n)
    (hlisted : db.hasTableNamed versionTable = true) :
    db.record? = some (.integer (Int64.ofNat n)) ∧ InUInt32 n := by
  obtain ⟨hle, hrecord⟩ := h
  have hle' : n ≤ 5 := hle
  rw [if_pos hlisted] at hrecord
  exact ⟨hrecord, by omega, by omega⟩

/-- Versions are told apart by what is recorded of them. -/
theorem eq_of_recorded {cell : Option Cell} (hv : InUInt32 v) (hw : InUInt32 w)
    (h : cell = some (.integer (Int64.ofNat v))) (h' : cell = some (.integer (Int64.ofNat w))) :
    v = w := by
  have hsame := congrArg Int64.toInt (Cell.integer.inj (Option.some.inj (h.symm.trans h')))
  rw [toInt_ofNat hv.inInt64, toInt_ofNat hw.inInt64] at hsame
  exact Int.ofNat.inj hsame

namespace Decided

theorem corrupt_iff (h : Decided access db u) :
    u.result = .error .corruptStore ↔ db.hasTableNamed versionTable = true ∧
      ∀ n, db.record? = some (.integer n) → ¬ InUInt32 n.toInt := by
  cases h with
  | corrupt hlisted hrecord hu => exact iff_of_true hu.result ⟨hlisted, hrecord⟩
  | newer hlisted hrecord hrange hlt hu =>
      refine iff_of_false (fun h => nomatch hu.result.symm.trans h) ?_
      rintro ⟨-, hnone⟩
      exact hnone _ hrecord ((toInt_ofNat hrange.inInt64).symm ▸ hrange)
  | started hstarts hv hu =>
      subst hu
      refine iff_of_false ?_ ?_
      · intro h
        obtain ⟨k, fault, he⟩ := exists_migration_of_climb hstarts.1 h
        cases he
      · rintro ⟨hlisted, hnone⟩
        obtain ⟨hrecord, hrange⟩ := hstarts.record? hlisted
        exact hnone _ hrecord ((toInt_ofNat hrange.inInt64).symm ▸ hrange)

theorem unsupported_iff (h : Decided access db u) (found current : Nat) :
    u.result = .error (.unsupportedVersion found current) ↔
      current = Layout.currentVersion ∧ current < found ∧ InUInt32 found ∧
        db.hasTableNamed versionTable = true ∧
        db.record? = some (.integer (Int64.ofNat found)) := by
  cases h with
  | corrupt hlisted hrecord hu =>
      refine iff_of_false (fun h => nomatch hu.result.symm.trans h) ?_
      rintro ⟨-, -, hrange, -, hfound⟩
      exact hrecord _ hfound ((toInt_ofNat hrange.inInt64).symm ▸ hrange)
  | @newer v hlisted hrecord hrange hlt hu =>
      constructor
      · intro h
        cases hu.result.symm.trans h
        exact ⟨rfl, hlt, hrange, hlisted, hrecord⟩
      · rintro ⟨rfl, -, hrange', -, hfound⟩
        obtain rfl := eq_of_recorded hrange hrange' hrecord hfound
        exact hu.result
  | started hstarts hv hu =>
      subst hu
      refine iff_of_false ?_ ?_
      · intro h
        obtain ⟨k, fault, he⟩ := exists_migration_of_climb hstarts.1 h
        cases he
      · rintro ⟨rfl, hlt, hrange', hlisted, hfound⟩
        obtain ⟨hrecord, hrange⟩ := hstarts.record? hlisted
        obtain rfl := eq_of_recorded hrange hrange' hrecord hfound
        exact absurd hstarts.1 (Nat.not_le.mpr hlt)

end Decided

/-- What all steps lead to, where the version table has its name. -/
theorem reached_of_ok (hnamed : db.RecordNamed) (hdb : db.Conforms)
    (hv : storedVersion db = .ok (some v)) (h : (ensureCurrent access db).result = .ok w) :
    storedVersion (ensureCurrent access db).database = .ok (some Layout.currentVersion) ∧
      (ensureCurrent access db).database.otherRecords = db.otherRecords := by
  obtain ⟨-, hclimbs, -⟩ := climbs_of_ok hv h
  refine ⟨hclimbs.storedVersion (.of_storedVersion hv hdb hnamed) hv, hclimbs.otherRecords ?_⟩
  intro t ht
  have hlisted := Database.hasTableNamed_iff.mpr ⟨t, ht, hnamed t ht⟩
  exact Database.HasRecord.of_record? (record?_of_storedVersion hv hlisted).1 t ht

theorem DecidesVersion.of_recordNamed (hdecided : Decided access db (ensureCurrent access db))
    (hdb : db.Conforms)
    (hnamed : ∀ w, (ensureCurrent access db).result = .ok w → db.RecordNamed) :
    DecidesVersion access db where
  corrupt := hdecided.corrupt_iff
  unsupported := hdecided.unsupported_iff
  refused := by
    intro h
    cases hdecided with
    | corrupt _ _ hu | newer _ _ _ _ hu => exact ⟨hu.database, hu.progress⟩
    | started hstarts hv hu =>
        rw [hu] at h
        obtain h | ⟨found, current, h⟩ := h
        · obtain ⟨k, fault, he⟩ := exists_migration_of_climb hstarts.1 h
          cases he
        · obtain ⟨k, fault, he⟩ := exists_migration_of_climb hstarts.1 h
          cases he
  started := by
    intro hcorrupt hunsupported
    cases hdecided with
    | corrupt _ _ hu => exact absurd hu.result hcorrupt
    | newer _ _ _ _ hu => exact absurd hu.result (hunsupported _ _)
    | started hstarts hv hu => exact ⟨_, hstarts, hu⟩
  present := fun n => ensureCurrent_ne_missingMigration n
  reached := by
    intro w h
    cases hdecided with
    | corrupt _ _ hu | newer _ _ _ _ hu => cases hu.result.symm.trans h
    | started hstarts hv hu =>
        obtain ⟨hw, -, hprogress⟩ := climbs_of_ok hv h
        obtain ⟨hafter, hothers⟩ := reached_of_ok (hnamed w h) hdb hv h
        exact ⟨hw, ⟨_, hstarts, hprogress⟩, record?_of_storedVersion_current hafter, hothers⟩
  settled := by
    intro w h again
    cases hdecided with
    | corrupt _ _ hu | newer _ _ _ _ hu => cases hu.result.symm.trans h
    | started hstarts hv hu =>
        exact ensureCurrent_of_current (reached_of_ok (hnamed w h) hdb hv h).1

theorem Climbs.hasColumn (h : Climbs access v db k after) (hdb : HasColumn key db) :
    HasColumn key after := by
  induction h with
  | stay => exact hdb
  | step _ hmid _ ih => exact ih (hdb.apply hmid)

theorem Climbs.misnamed (h : Climbs access v db k after) (hdb : db.Misnamed) :
    after.Misnamed := by
  induction h with
  | stay => exact hdb
  | step _ hmid _ ih => exact ih (hdb.apply hmid)

/-- With the version table under another spelling of its name, the first step is taken
again after all steps have succeeded, and fails. -/
theorem not_decidesVersion (hdb : db.Misnamed) (h : (ensureCurrent access db).result = .ok w) :
    ¬ DecidesVersion access db := by
  intro hdecides
  obtain ⟨-, hclimbs, -⟩ := climbs_of_ok hdb.storedVersion h
  have hagain := (hdecides.settled w h access).result
  obtain ⟨-, hclimbs', -⟩ := climbs_of_ok (hclimbs.misnamed hdb).storedVersion hagain
  -- both upgrades begin with the first step
  cases hclimbs with
  | step hs hmid hrest =>
      obtain rfl : Step.titlePriorityTags = _ := Option.some.inj hs
      have htitle := hrest.hasColumn (Step.hasColumn_of_apply rfl hmid)
      cases hclimbs' with
      | step hs' hmid' _ =>
          obtain rfl : Step.titlePriorityTags = _ := Option.some.inj hs'
          exact htitle.apply_ne_ok rfl hmid'

/-- The record decides what becomes of a store with messages, unless the version table goes
by another spelling of its name and all steps succeed. -/
theorem decidesVersion_iff (hm : db.hasTableNamed messagesTable = true)
    (hcolumns : ∀ t, db.table? versionTable = some t → t.missing? ["version", "id"] = none)
    (hdb : db.Conforms) :
    DecidesVersion access db ↔
      db.RecordNamed ∨ ∀ w, (ensureCurrent access db).result ≠ .ok w := by
  have hdecided := ensureCurrent_decided access hm hcolumns
  constructor
  · intro hdecides
    by_cases hnamed : db.RecordNamed
    · exact .inl hnamed
    · exact .inr fun w h => not_decidesVersion ⟨hm, hnamed⟩ h hdecides
  · rintro (hnamed | hfails)
    · exact .of_recordNamed hdecided hdb fun _ _ => hnamed
    · exact .of_recordNamed hdecided hdb fun w h => absurd h (hfails w)

end Deciding

/-! ## A store that is upgraded and cannot be opened again -/

/-- A store of version 3 with a row beside the record. -/
def recordedTables : List Statement :=
  [.createTable messagesTable (Layout.released 3), .createTable versionTable versionColumns,
    .insert versionTable (recordValues 3),
    .insert versionTable [("id", .integer 2), ("version", .integer 9)]]

/-- A store without a record, and a table that takes the place of the version table. -/
def misspelledTables : List Statement :=
  [.createTable messagesTable (Layout.released 0), .createTable "SchemaVersion" versionColumns]

/-- The hypotheses of `decidesVersion_iff` hold of a store with a version table. -/
theorem decidesVersion_iff_recorded :
    ∃ db, transaction .granted recordedTables .empty = .ok db ∧
      db.record? = some (.integer 3) ∧ db.otherRecords ≠ [] ∧ DecidesVersion .granted db := by
  have hstore : ∃ db t, transaction .granted recordedTables .empty = .ok db ∧
      db.hasTableNamed messagesTable = true ∧ db.table? versionTable = some t ∧
      t.name = versionTable ∧ t.missing? ["version", "id"] = none ∧
      db.record? = some (.integer 3) ∧ db.otherRecords.length = 1 :=
    ⟨_, _, rfl, rfl, rfl, rfl, rfl, rfl, rfl⟩
  obtain ⟨db, t, hdb, hm, ht, hname, hknown, hrecord, hothers⟩ := hstore
  have hconforms : db.Conforms := by
    refine .of_transaction ?_ hdb
    intro s hs
    simp only [recordedTables, List.mem_cons, List.not_mem_nil, or_false] at hs
    rcases hs with rfl | rfl | rfl | rfl
    · exact .createTable _ (by decide)
    · exact .createTable _ (by decide)
    · exact .insert _ _
    · exact .insert _ _
  refine ⟨db, hdb, hrecord, List.length_pos_iff.mp (by omega), ?_⟩
  refine (decidesVersion_iff hm ?_ hconforms).mpr (.inl ?_)
  · intro u hu
    obtain rfl : t = u := Option.some.inj (ht.symm.trans hu)
    exact hknown
  · intro u hu
    obtain rfl : t = u := Option.some.inj (ht.symm.trans hu)
    exact hname

/-- The upgrade succeeds, and the next one fails in its first step. -/
theorem not_decidesVersion_misspelled :
    ∃ db, transaction .granted misspelledTables .empty = .ok db ∧
      (ensureCurrent .granted db).result = .ok 5 ∧
      (ensureCurrent .granted (ensureCurrent .granted db).database).result =
        .error (.migration 0 1 (.duplicateColumn "title")) ∧
      ¬ DecidesVersion .granted db := by
  refine ⟨_, rfl, rfl, rfl, not_decidesVersion ⟨rfl, ?_⟩ rfl⟩
  intro hnamed
  exact absurd (hnamed _ rfl) (by decide)

end MessageCache
