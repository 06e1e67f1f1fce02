/-
# The version on record, and what becomes of it

On record is what statements read, which find the version table by its name in either
case (`Database.record?`).  An upgrade writes there when it creates a new store and at
the end of each step, and reports either of them:

    no version is reported as reached    ⟹   the database is as it was
    some are                             ⟹   the last of them is on record

So the record is lowered iff the last version that is reported is less than what was on
record.  That does not happen where the record is searched for, since a version that is
too new is refused then, and steps lead upwards.  But it is searched for only if tables
are listed under both names, case included.  A record without messages beside it is
overwritten by that of a new store, and one in a table of another spelling by that of the
first step.

`keepsRecord_iff` says when the record is kept.
-/
import MessageCache.Proofs.Schema.Fresh

namespace MessageCache

/-! ## Writing the record -/

section Writing

variable {access : WriteAccess} {db after : Database} {v k : Nat}

theorem record?_recordVersion (hdb : db.RecordsIntegers)
    (h : transaction .granted (recordVersion v) db = .ok after) :
    after.record? = some (.integer (Int64.ofNat v)) := by
  obtain ⟨t, ht, hholds, -⟩ := exists_recorded h
  exact hholds.record?_eq ht (hdb.recordVersion h t · ht)

theorem Database.RecordsIntegers.congr (h : db.RecordsIntegers)
    (ht : after.table? versionTable = db.table? versionTable) : after.RecordsIntegers := by
  intro t c htable
  rw [ht] at htable
  exact h t c htable

/-- A step puts its target on record. -/
theorem Step.record?_apply {s : Step} (hs : leadingFrom? v = some s)
    (hdb : db.RecordsIntegers) (h : s.apply access db = .ok after) :
    after.RecordsIntegers ∧ after.record? = some (.integer (Int64.ofNat (v + 1))) := by
  obtain ⟨mid, hrun, hrecord⟩ := Step.apply_eq_ok.mp (Step.apply_granted h)
  rw [target_of_leadingFrom? hs] at hrecord
  have hmid : mid.RecordsIntegers :=
    hdb.congr ((Step.run_confined hrun).table?_of_ne messagesTable_ne_versionTable.symm)
  exact ⟨hmid.recordVersion hrecord, record?_recordVersion hmid hrecord⟩

/-- To climb no further than one is changes nothing. -/
theorem Climbs.eq_of_le (h : Climbs access v db k after) (hk : k ≤ v) : after = db := by
  cases h with
  | stay => rfl
  | step _ _ hrest => exact absurd hrest.le (by omega)

theorem Climbs.record? (h : Climbs access v db k after) (hdb : db.RecordsIntegers)
    (hk : v < k) : after.record? = some (.integer (Int64.ofNat k)) := by
  induction h with
  | stay => exact absurd hk (Nat.lt_irrefl _)
  | @step v k s db mid after hs hmid hrest ih =>
      obtain ⟨hmidIntegers, hrecord⟩ := Step.record?_apply hs hdb hmid
      rcases Nat.lt_or_ge (v + 1) k with hlt | hge
      · exact ih hmidIntegers hlt
      · -- the step was the last one
        obtain rfl := hrest.eq_of_le hge
        obtain rfl : k = v + 1 := Nat.le_antisymm hge hrest.le
        exact hrecord

end Writing

/-! ## What an upgrade reports of it -/

/-- The version that was on record when this was reported, if it had been put there then. -/
def Progress.written? : Progress → Option Nat
  | .createdFresh version => some version
  | .stepFinished _ target => some target
  | .stepStarted _ _ _ | .upToDate _ => none

/-- The last version that was put on record. -/
def lastWritten? (progress : List Progress) : Option Nat :=
  (progress.filterMap Progress.written?).getLast?

section Reports

variable {access : WriteAccess} {db after : Database} {v k : Nat}

theorem lastWritten?_append_of_none {p : Progress} (hp : p.written? = none)
    (progress : List Progress) : lastWritten? (progress ++ [p]) = lastWritten? progress := by
  unfold lastWritten?
  rw [List.filterMap_append, List.filterMap_cons_none hp, List.filterMap_nil, List.append_nil]

theorem Climbs.lastWritten?_reported (h : Climbs access v db k after) :
    lastWritten? (reported v k) = if v < k then some k else none := by
  induction h with
  | stay =>
      rw [reported_self, if_neg (Nat.lt_irrefl _)]
      rfl
  | @step v k s db mid after hs _ hrest ih =>
      have hk : v < k := hrest.le
      rw [if_pos hk, reported_step hs hk]
      unfold lastWritten? at ih ⊢
      simp only [List.cons_append, List.nil_append, List.filterMap_cons, Progress.written?]
      rw [List.getLast?_cons, ih]
      split
      · rfl
      · rw [Option.getD_none, Nat.le_antisymm (by omega) hk]

/-- Nothing has changed unless a version is reported as written, and then the last one is on
record. -/
structure RecordsLast (progress : List Progress) (db after : Database) : Prop where
  unwritten : lastWritten? progress = none → after = db
  written : ∀ k, lastWritten? progress = some k →
    k ≤ Layout.currentVersion ∧ after.record? = some (.integer (Int64.ofNat k))

theorem Climbs.recordsLast (h : Climbs access v db k after) (hdb : db.RecordsIntegers)
    (hk : k ≤ Layout.currentVersion) : RecordsLast (reported v k) db after where
  unwritten := by
    rw [h.lastWritten?_reported]
    intro hnone
    split at hnone
    · cases hnone
    · rename_i hlt
      exact h.eq_of_le (Nat.not_lt.mp hlt)
  written := by
    rw [h.lastWritten?_reported]
    intro w hw
    split at hw
    · rename_i hlt
      cases hw
      exact ⟨hk, h.record? hdb hlt⟩
    · cases hw

theorem RecordsLast.append {progress : List Progress} (h : RecordsLast progress db after)
    {p : Progress} (hp : p.written? = none) : RecordsLast (progress ++ [p]) db after where
  unwritten hnone := h.unwritten (lastWritten?_append_of_none hp progress ▸ hnone)
  written k hk := h.written k (lastWritten?_append_of_none hp progress ▸ hk)

theorem recordsLast_ensureCurrent (access : WriteAccess) (hdb : db.RecordsIntegers) :
    RecordsLast (ensureCurrent access db).progress db (ensureCurrent access db).database := by
  cases ensureCurrent_ends access db with
  | unread hv hu | newer hv hlt hu | uncreated hv hfault hu =>
      rw [hu.progress, hu.database]
      refine ⟨fun _ => rfl, ?_⟩
      intro k hk
      cases hk
  | created hv hcreate hu =>
      obtain ⟨mid, hothers, -, hrecord⟩ := createFresh_eq_ok hcreate
      have hmid : mid.RecordsIntegers :=
        hdb.congr (hothers versionTable messagesTable_ne_versionTable.symm)
      rw [hu.progress, hu.database]
      constructor
      · intro hnone
        cases hnone
      · intro k hk
        cases hk
        exact ⟨Nat.le_refl _, record?_recordVersion hmid hrecord⟩
  | climbed hv hclimbs hu =>
      rw [hu.progress, hu.database]
      exact (hclimbs.recordsLast hdb (Nat.le_refl _)).append rfl
  | stopped hv hclimbs hs hfault hu =>
      rw [hu.progress, hu.database]
      exact (hclimbs.recordsLast hdb (Nat.le_of_lt (Step.lt_of_leadingFrom? hs))).append rfl

/-- A version is written into a new store, or above the one that was read. -/
theorem storedVersion_of_written
    (h : lastWritten? (ensureCurrent access db).progress = some k) :
    storedVersion db = .ok none ∨ ∃ v < k, storedVersion db = .ok (some v) := by
  cases ensureCurrent_ends access db with
  | unread hv hu | newer hv hlt hu | uncreated hv hfault hu =>
      rw [hu.progress] at h
      cases h
  | created hv hcreate hu => exact .inl hv
  | climbed hv hclimbs hu | stopped hv hclimbs hs hfault hu =>
      rw [hu.progress, lastWritten?_append_of_none rfl, hclimbs.lastWritten?_reported] at h
      split at h
      · rename_i hlt
        cases h
        exact .inr ⟨_, hlt, hv⟩
      · cases h

/-- An upgrade that succeeds writes the current version, unless it was read. -/
theorem written_of_ok {w : Nat} (h : (ensureCurrent access db).result = .ok w) :
    lastWritten? (ensureCurrent access db).progress = some Layout.currentVersion ∨
      storedVersion db = .ok (some Layout.currentVersion) := by
  cases ensureCurrent_ends access db with
  | unread hv hu | newer hv hlt hu | uncreated hv hfault hu | stopped hv hclimbs hs hfault hu =>
      cases hu.result.symm.trans h
  | created hv hcreate hu =>
      rw [hu.progress]
      exact .inl rfl
  | climbed hv hclimbs hu =>
      rw [hu.progress, lastWritten?_append_of_none rfl, hclimbs.lastWritten?_reported]
      rcases Nat.lt_or_eq_of_le hclimbs.le with hlt | rfl
      · exact .inl (if_pos hlt)
      · exact .inr hv

end Reports

/-! ## When the record is kept -/

/-- The version on record is never lowered: if it is newer than the current one, the store
is refused and left as it is, and in any case there is one at least as great afterwards. -/
structure KeepsRecord (access : WriteAccess) (db : Database) : Prop where
  newer : ∀ n, db.record? = some (.integer n) → Layout.currentVersion < n.toInt →
    (∀ w, (ensureCurrent access db).result ≠ .ok w) ∧ (ensureCurrent access db).database = db
  kept : ∀ n, db.record? = some (.integer n) →
    ∃ m, (ensureCurrent access db).database.record? = some (.integer m) ∧ n.toInt ≤ m.toInt

section Keeping

variable {access : WriteAccess} {db : Database} {n : Int64} {k : Nat}

theorem versionSearch_isSome :
    (versionSearch db).isSome ↔
      db.hasTableNamed messagesTable = true ∧ db.hasTableNamed versionTable = true := by
  unfold versionSearch
  split <;> simp_all

theorem toInt_ofNat_of_le_current (hk : k ≤ Layout.currentVersion) :
    (Int64.ofNat k).toInt = k := by
  have hk' : k ≤ 5 := hk
  exact toInt_ofNat ⟨by omega, by omega⟩

/-- Where the record is searched for, nothing below it is written. -/
theorem le_written_of_versionSearch (hsearch : (versionSearch db).isSome)
    (hn : db.record? = some (.integer n))
    (hk : lastWritten? (ensureCurrent access db).progress = some k) : n.toInt ≤ k := by
  obtain ⟨hm, hlisted⟩ := versionSearch_isSome.mp hsearch
  rcases storedVersion_of_written hk with hv | ⟨v, hlt, hv⟩
  · rw [hasTableNamed_of_new hv] at hm
    cases hm
  · obtain ⟨hrecord, hrange⟩ := record?_of_storedVersion hv hlisted
    obtain rfl : n = Int64.ofNat v := Cell.integer.inj (Option.some.inj (hn.symm.trans hrecord))
    rw [toInt_ofNat hrange.inInt64]
    omega

/-- The current version is read only where it is on record. -/
theorem record?_of_storedVersion_current
    (h : storedVersion db = .ok (some Layout.currentVersion)) :
    db.record? = some (.integer (Int64.ofNat Layout.currentVersion)) := by
  cases hlisted : db.hasTableNamed versionTable with
  | true => exact (record?_of_storedVersion h hlisted).1
  | false =>
      rw [storedVersion_unnamed (hasMessages_of_storedVersion h) hlisted] at h
      cases h

theorem KeepsRecord.of_le_written (hdb : db.Conforms)
    (h : ∀ n k, db.record? = some (.integer n) →
      lastWritten? (ensureCurrent access db).progress = some k → n.toInt ≤ k) :
    KeepsRecord access db where
  newer := by
    intro n hn hlt
    have hlast := recordsLast_ensureCurrent access (hdb.recordsIntegers hn)
    have hnone : lastWritten? (ensureCurrent access db).progress = none := by
      cases hk : lastWritten? (ensureCurrent access db).progress with
      | none => rfl
      | some k =>
          have hle := h n k hn hk
          have hle' := (hlast.written k hk).1
          omega
    refine ⟨?_, hlast.unwritten hnone⟩
    intro w hw
    rcases written_of_ok hw with hk | hv
    · cases hnone.symm.trans hk
    · cases hn.symm.trans (record?_of_storedVersion_current hv)
      exact absurd hlt (by decide)
  kept := by
    intro n hn
    have hlast := recordsLast_ensureCurrent access (hdb.recordsIntegers hn)
    cases hk : lastWritten? (ensureCurrent access db).progress with
    | none =>
        refine ⟨n, ?_, Int.le_refl _⟩
        rw [hlast.unwritten hk]
        exact hn
    | some k =>
        obtain ⟨hle, hrecord⟩ := hlast.written k hk
        refine ⟨_, hrecord, ?_⟩
        rw [toInt_ofNat_of_le_current hle]
        exact h n k hn hk

/-- The version on record is not lowered iff it is searched for, or nothing below it is
reported as reached in the end. -/
theorem keepsRecord_iff (hdb : db.Conforms) :
    KeepsRecord access db ↔ (versionSearch db).isSome ∨
      ∀ n k, db.record? = some (.integer n) →
        lastWritten? (ensureCurrent access db).progress = some k → n.toInt ≤ k := by
  constructor
  · intro hkeeps
    refine .inr fun n k hn hk => ?_
    have hlast := recordsLast_ensureCurrent access (hdb.recordsIntegers hn)
    obtain ⟨hcurrent, hrecord⟩ := hlast.written k hk
    obtain ⟨m, hm, hle⟩ := hkeeps.kept n hn
    cases hrecord.symm.trans hm
    rwa [toInt_ofNat_of_le_current hcurrent] at hle
  · rintro (hsearch | hle)
    · exact .of_le_written hdb fun n k hn hk => le_written_of_versionSearch hsearch hn hk
    · exact .of_le_written hdb hle

end Keeping

/-! ## Records that are not searched for -/

/-- A version newer than the current one, and no messages. -/
def unlistedRecord : List Statement :=
  [.createTable versionTable versionColumns, .insert versionTable (recordValues 7)]

/-- A version newer than the current one, in a table of another spelling beside messages. -/
def misspelledRecord : List Statement :=
  [.createTable messagesTable (Layout.released 0), .createTable "SchemaVersion" versionColumns,
    .insert "SchemaVersion" (recordValues 7)]

theorem keepsRecord_iff_misspelled :
    ∃ db, transaction .granted misspelledRecord .empty = .ok db ∧ db.record? = some (.integer 7) ∧
      ¬ KeepsRecord .granted db := by
  have hstore : ∃ db, transaction .granted misspelledRecord .empty = .ok db ∧
      db.record? = some (.integer 7) ∧ (versionSearch db).isSome = false ∧
      lastWritten? (ensureCurrent .granted db).progress = some 5 := ⟨_, rfl, rfl, rfl, rfl⟩
  obtain ⟨db, hdb, hn, hsearch, hk⟩ := hstore
  have hconforms : db.Conforms := by
    refine .of_transaction ?_ hdb
    intro s hs
    simp only [misspelledRecord, List.mem_cons, List.not_mem_nil, or_false] at hs
    rcases hs with rfl | rfl | rfl
    · exact .createTable _ (by decide)
    · exact .createTable _ (by decide)
    · exact .insert _ _
  refine ⟨db, hdb, hn, fun hkeeps => ?_⟩
  rcases (keepsRecord_iff hconforms).mp hkeeps with hsome | hle
  · rw [hsearch] at hsome
    cases hsome
  · exact absurd (hle 7 5 hn hk) (by decide)

/-- A store is made where there are no messages, and the record of a newer one is lowered. -/
theorem not_keepsRecord_unlisted :
    ∃ db, transaction .granted unlistedRecord .empty = .ok db ∧ db.record? = some (.integer 7) ∧
      (ensureCurrent .granted db).result = .ok 5 ∧
      (ensureCurrent .granted db).database.record? = some (.integer 5) ∧
      ¬ KeepsRecord .granted db := by
  have hstore : ∃ db, transaction .granted unlistedRecord .empty = .ok db ∧
      db.record? = some (.integer 7) ∧ (ensureCurrent .granted db).result = .ok 5 ∧
      (ensureCurrent .granted db).database.record? = some (.integer 5) := ⟨_, rfl, rfl, rfl, rfl⟩
  obtain ⟨db, hdb, hn, hresult, hafter⟩ := hstore
  refine ⟨db, hdb, hn, hresult, hafter, fun hkeeps => ?_⟩
  exact (hkeeps.newer 7 hn (by decide)).1 5 hresult

end MessageCache
