/-
# Upgrades that stop in the middle

An upgrade climbs: one step, one transaction, and on from there.  It stops where a step
fails or at the current version, and in both cases it is known what was done by then:

    climb v db  =  what was done up to version k, and then  climb k after
                                                     if  Climbs v db k after  (`Climbs.climb_eq`)
    some such k is the current version, or the step that leads on from it fails
                                                                        (`exists_climbs`)

`AtomicUpgrade` says that a failure leaves exactly the completed steps behind, and that
it makes no difference to the end if the upgrade is broken off between two steps.  Both
depend on the version of the last completed step being the one that is read.  It is,
unless the version table goes by another spelling of its name: then version 0 is read
whatever is recorded, and the first step is taken again.  `atomicUpgrade_iff` says that
this is the only exception, and that it is one as soon as the first step succeeds.
-/
import MessageCache.Proofs.Schema.Step

namespace MessageCache

/-! ## Climbing -/

/-- The steps from a version on succeed one after the other, up to another version. -/
inductive Climbs (access : WriteAccess) : Nat → Database → Nat → Database → Prop
  | stay {v : Nat} {db : Database} : Climbs access v db v db
  | step {v k : Nat} {s : Step} {db mid after : Database} :
      Step.leadingFrom? v = some s → s.apply access db = .ok mid →
      Climbs access (v + 1) mid k after → Climbs access v db k after

/-- What is reported of the steps from one version to another. -/
def reported (v k : Nat) : List Progress :=
  ((Step.all.drop v).take (k - v)).flatMap fun s =>
    [.stepStarted s.origin s.target s.name, .stepFinished s.origin s.target]

namespace Upgrade

@[simp] theorem after_nil (u : Upgrade) : u.after [] = u := rfl

theorem after_after (first rest : List Progress) (u : Upgrade) :
    (u.after rest).after first = u.after (first ++ rest) := by
  unfold after
  rw [List.append_assoc]

end Upgrade

section Climbing

variable {access : WriteAccess} {v k : Nat} {s : Step} {db mid after : Database}

@[simp] theorem reported_self (v : Nat) : reported v v = [] := by
  unfold reported
  rw [Nat.sub_self]
  rfl

theorem reported_step (hs : Step.leadingFrom? v = some s) (hk : v < k) :
    reported v k = [.stepStarted v (v + 1) s.name, .stepFinished v (v + 1)] ++
      reported (v + 1) k := by
  have htarget := Step.target_of_leadingFrom? hs
  have horigin := Step.origin_of_leadingFrom? hs
  rw [Step.leadingFrom?_eq] at hs
  obtain ⟨hv, rfl⟩ := List.getElem?_eq_some_iff.mp hs
  obtain ⟨n, rfl⟩ : ∃ n, k = v + 1 + n := ⟨k - (v + 1), by omega⟩
  unfold reported
  rw [List.drop_eq_getElem_cons hv, show v + 1 + n - v = n + 1 by omega,
    Nat.add_sub_cancel_left, List.take_succ_cons, List.flatMap_cons, htarget, horigin]

theorem Climbs.le (h : Climbs access v db k after) : v ≤ k := by
  induction h with
  | stay => exact Nat.le_refl _
  | step _ _ _ ih => exact Nat.le_of_succ_le ih

theorem Climbs.le_current (h : Climbs access v db k after) (hv : v ≤ Layout.currentVersion) :
    k ≤ Layout.currentVersion := by
  induction h with
  | stay => exact hv
  | step hs _ _ ih => exact ih (Step.lt_of_leadingFrom? hs)

/-- Steps that succeed are what an upgrade begins with. -/
theorem Climbs.climb_eq (h : Climbs access v db k after) :
    Upgrade.climb access (Layout.currentVersion - v) v db =
      (Upgrade.climb access (Layout.currentVersion - k) k after).after (reported v k) := by
  induction h with
  | stay => rw [reported_self, Upgrade.after_nil]
  | @step v k s db mid after hs hmid hrest ih =>
      have hv := Step.lt_of_leadingFrom? hs
      rw [reported_step hs hrest.le, ← Upgrade.after_after, ← ih,
        show Layout.currentVersion - v = Layout.currentVersion - (v + 1) + 1 by omega,
        Upgrade.climb]
      simp only [hs, hmid, Step.origin_of_leadingFrom? hs, Step.target_of_leadingFrom? hs]

/-- An upgrade gets to the current version or to a step that fails. -/
theorem exists_climbs (access : WriteAccess) (db : Database) (hv : v ≤ Layout.currentVersion) :
    ∃ k after, Climbs access v db k after ∧ (k = Layout.currentVersion ∨
      ∃ s fault, Step.leadingFrom? k = some s ∧ s.apply access after = .error fault) := by
  -- by induction on the number of steps ahead
  obtain ⟨n, hn⟩ : ∃ n, v + n = Layout.currentVersion := ⟨_, Nat.add_sub_cancel' hv⟩
  induction n generalizing v db with
  | zero => exact ⟨v, db, .stay, .inl hn⟩
  | succ n ih =>
      obtain ⟨s, hs⟩ := Step.exists_leadingFrom? (v := v) (by omega)
      cases hmid : s.apply access db with
      | error fault => exact ⟨v, db, .stay, .inr ⟨s, fault, hs, hmid⟩⟩
      | ok mid =>
          obtain ⟨k, after, hclimbs, hend⟩ := ih (v := v + 1) mid (by omega) (by omega)
          exact ⟨k, after, .step hs hmid hclimbs, hend⟩

/-- The end at the current version. -/
theorem Climbs.climb_current (h : Climbs access v db Layout.currentVersion after) :
    (Upgrade.climb access (Layout.currentVersion - v) v db).result =
      .ok Layout.currentVersion := by
  rw [h.climb_eq, Nat.sub_self]
  rfl

/-- The end at a step that fails: nothing of it is left but the report that it began. -/
theorem Climbs.climb_failed (h : Climbs access v db k after) {fault : Fault}
    (hs : Step.leadingFrom? k = some s) (hfault : s.apply access after = .error fault) :
    let u := Upgrade.climb access (Layout.currentVersion - v) v db
    u.result = .error (.migration k (k + 1) fault) ∧ u.database = after ∧
      u.progress = reported v k ++ [.stepStarted k (k + 1) s.name] := by
  have hk := Step.lt_of_leadingFrom? hs
  rw [h.climb_eq, show Layout.currentVersion - k = Layout.currentVersion - (k + 1) + 1 by omega,
    Upgrade.climb]
  simp only [hs, hfault, Step.origin_of_leadingFrom? hs, Step.target_of_leadingFrom? hs]
  exact ⟨rfl, rfl, rfl⟩

/-- An upgrade from a version up to the current one is the climb from there. -/
theorem ensureCurrent_eq_climb (hv : storedVersion db = .ok (some v))
    (hle : v ≤ Layout.currentVersion) :
    ensureCurrent access db = Upgrade.climb access (Layout.currentVersion - v) v db := by
  unfold ensureCurrent
  rw [hv]
  exact if_neg (Nat.not_lt.mpr hle)

/-- In a store that can be resumed the version reached is the one that is read. -/
theorem Climbs.storedVersion (h : Climbs access v db k after) (hdb : Resumable db)
    (hv : MessageCache.storedVersion db = .ok (some v)) :
    MessageCache.storedVersion after = .ok (some k) := by
  induction h with
  | stay => exact hv
  | step hs hmid _ ih =>
      obtain ⟨hmid', hversion⟩ := hdb.apply hs (Step.apply_granted hmid)
      exact ih hmid' hversion

end Climbing

/-! ## Atomic steps -/

/-- An upgrade from a version fails step by step and can be resumed. -/
structure AtomicUpgrade (access : WriteAccess) (v : Nat) (db : Database) : Prop where
  /-- If it fails, it is in a step, of which nothing remains. -/
  failed : ∀ e, (ensureCurrent access db).result = .error e →
    ∃ k s fault after, Climbs access v db k after ∧
      Step.leadingFrom? k = some s ∧ s.apply access after = .error fault ∧
      e = .migration k (k + 1) fault ∧
      (ensureCurrent access db).database = after ∧ storedVersion after = .ok (some k) ∧
      (ensureCurrent access db).progress = reported v k ++ [.stepStarted k (k + 1) s.name]
  /-- Broken off between two steps and begun again, it comes to the same end. -/
  resumed : ∀ k after, Climbs access v db k after →
    (ensureCurrent access after).result = (ensureCurrent access db).result ∧
      (ensureCurrent access after).database = (ensureCurrent access db).database

section Atomicity

variable {access : WriteAccess} {v : Nat} {db : Database}

/-- It is enough that the version reached is the one that is read. -/
theorem AtomicUpgrade.of_storedVersion (hv : storedVersion db = .ok (some v))
    (hle : v ≤ Layout.currentVersion)
    (hreached : ∀ k after, Climbs access v db k after → storedVersion after = .ok (some k)) :
    AtomicUpgrade access v db where
  failed := by
    intro e he
    rw [ensureCurrent_eq_climb hv hle] at he ⊢
    obtain ⟨k, after, hclimbs, rfl | ⟨s, fault, hs, hfault⟩⟩ := exists_climbs access db hle
    · rw [hclimbs.climb_current] at he
      cases he
    · obtain ⟨hresult, hdatabase, hprogress⟩ := hclimbs.climb_failed hs hfault
      rw [hresult] at he
      exact ⟨k, s, fault, after, hclimbs, hs, hfault, (Except.error.inj he).symm, hdatabase,
        hreached k after hclimbs, hprogress⟩
  resumed := by
    intro k after hclimbs
    have hk := hclimbs.le_current hle
    rw [ensureCurrent_eq_climb hv hle, ensureCurrent_eq_climb (hreached k after hclimbs) hk,
      hclimbs.climb_eq]
    exact ⟨rfl, rfl⟩

/-- There are messages, and the version table goes by another spelling of its name. -/
structure Database.Misnamed (db : Database) : Prop where
  messages : db.hasTableNamed messagesTable = true
  unnamed : ¬ db.RecordNamed

namespace Database.Misnamed

theorem not_listed (h : db.Misnamed) : db.hasTableNamed versionTable = false := by
  obtain ⟨t, ht, hname⟩ := Database.exists_of_not_recordNamed h.unnamed
  rw [Database.hasTableNamed, ht]
  exact decide_eq_false hname

theorem storedVersion (h : db.Misnamed) : MessageCache.storedVersion db = .ok (some 0) :=
  storedVersion_unnamed h.messages h.not_listed

/-- No step gives the table its name. -/
theorem apply {mid : Database} (h : db.Misnamed) {s : Step} (hmid : s.apply access db = .ok mid) :
    mid.Misnamed := by
  obtain ⟨changed, hrun, hrecord⟩ := Step.apply_eq_ok.mp (Step.apply_granted hmid)
  have hchanges := Step.run_confined hrun
  have hconfined := recordVersion_confined hrecord
  obtain ⟨m, hm, -⟩ := Database.hasTableNamed_iff.mp h.messages
  obtain ⟨t, ht, hname⟩ := Database.exists_of_not_recordNamed h.unnamed
  have hchanged : changed.table? versionTable = some t :=
    (hchanges.table?_of_ne messagesTable_ne_versionTable.symm).trans ht
  obtain ⟨u, hu, huname⟩ := hconfined.named t hchanged
  refine ⟨?_, fun hnamed => hname (huname.symm.trans (hnamed u hu))⟩
  rw [hconfined.hasTableNamed_of_ne messagesTable_ne_versionTable,
    hchanges.hasTableNamed_of_isSome (by rw [hm]; rfl)]
  exact h.messages

end Database.Misnamed

/-- Where the name of the version table is not the one that is looked for, version 0 is
read whatever happens. -/
theorem storedVersion_of_not_recordNamed {mid : Database}
    (hv : storedVersion db = .ok (some v)) (hnamed : ¬ db.RecordNamed)
    {s : Step} (hmid : s.apply access db = .ok mid) : storedVersion mid = .ok (some 0) :=
  (Database.Misnamed.apply ⟨hasMessages_of_storedVersion hv, hnamed⟩ hmid).storedVersion

/-- With the version table under another spelling of its name, the first step is taken
again where the upgrade is resumed after it, and fails. -/
theorem not_atomicUpgrade {mid : Database} (hv : storedVersion db = .ok (some 0))
    (hnamed : ¬ db.RecordNamed) (hmid : Step.titlePriorityTags.apply access db = .ok mid) :
    ¬ AtomicUpgrade access 0 db := by
  intro hatomic
  have hfirst : Step.leadingFrom? 0 = some Step.titlePriorityTags := rfl
  have hclimbs : Climbs access 0 db 1 mid := .step hfirst hmid .stay
  -- the resumed upgrade fails in the first step
  have hagain : ∃ fault, Step.titlePriorityTags.apply access mid = .error fault := by
    cases h : Step.titlePriorityTags.apply access mid with
    | error fault => exact ⟨fault, rfl⟩
    | ok after => exact absurd h (Step.apply_once List.mem_cons_self hmid)
  obtain ⟨fault, hfault⟩ := hagain
  have hresumed : (ensureCurrent access mid).result = .error (.migration 0 1 fault) := by
    rw [ensureCurrent_eq_climb (storedVersion_of_not_recordNamed hv hnamed hmid) (Nat.zero_le _)]
    exact (Climbs.climb_failed .stay hfirst hfault).1
  -- the upgrade in one go does not fail there
  rw [(hatomic.resumed 1 mid hclimbs).1, ensureCurrent_eq_climb hv (Nat.zero_le _)] at hresumed
  obtain ⟨k, after, hrest, hend⟩ := exists_climbs (v := 1) access mid (by decide)
  have hall : Climbs access 0 db k after := .step hfirst hmid hrest
  rcases hend with rfl | ⟨s, fault', hs, hfault'⟩
  · rw [hall.climb_current] at hresumed
    cases hresumed
  · rw [(hall.climb_failed hs hfault').1] at hresumed
    have hk : k = 0 := (StoreError.migration.inj (Except.error.inj hresumed)).1
    exact absurd hrest.le (by omega)

/-- An upgrade is atomic unless there is a version table under another spelling of its
name and the first step succeeds. -/
theorem atomicUpgrade_iff (hv : storedVersion db = .ok (some v))
    (hle : v ≤ Layout.currentVersion) (hdb : db.Conforms) :
    AtomicUpgrade access v db ↔
      db.RecordNamed ∨ ∀ mid, Step.titlePriorityTags.apply access db ≠ .ok mid := by
  by_cases hnamed : db.RecordNamed
  · have hresumable := Resumable.of_storedVersion hv hdb hnamed
    refine iff_of_true (.of_storedVersion hv hle ?_) (.inl hnamed)
    intro k after hclimbs
    exact hclimbs.storedVersion hresumable hv
  · -- there is such a table, so version 0 was read
    have hzero : v = 0 := by
      have hmisnamed : db.Misnamed := ⟨hasMessages_of_storedVersion hv, hnamed⟩
      rw [hmisnamed.storedVersion] at hv
      exact (Option.some.inj (Except.ok.inj hv)).symm
    subst hzero
    constructor
    · intro hatomic
      exact .inr fun mid hmid => not_atomicUpgrade hv hnamed hmid hatomic
    · rintro (hnamed' | hfails)
      · exact absurd hnamed' hnamed
      · refine .of_storedVersion hv hle ?_
        intro k after hclimbs
        cases hclimbs with
        | stay => exact hv
        | step hs hmid _ =>
            obtain rfl : Step.titlePriorityTags = _ := Option.some.inj hs
            exact absurd hmid (hfails _)

end Atomicity

/-! ## A store that cannot be resumed -/

/-- A store without a record, with an unusable column `published` and a table that takes
the place of the version table. -/
def misnamedTables : List Statement :=
  [.createTable messagesTable (["id", "time", "topic", "message", "published"].map Layout.column),
    .createTable "SchemaVersion" (["id", "version"].map Layout.column)]

theorem conforms_misnamed {db : Database}
    (h : transaction .granted misnamedTables .empty = .ok db) : db.Conforms := by
  refine .of_transaction ?_ h
  intro s hs
  simp only [misnamedTables, List.mem_cons, List.not_mem_nil, or_false] at hs
  rcases hs with rfl | rfl
  · exact .createTable _ (by decide)
  · exact .createTable _ (by decide)

/-- The hypotheses of `atomicUpgrade_iff` hold of a store. -/
theorem atomicUpgrade_iff_misnamed : ∃ db, transaction .granted misnamedTables .empty = .ok db ∧
    (AtomicUpgrade .granted 0 db ↔
      db.RecordNamed ∨ ∀ mid, Step.titlePriorityTags.apply .granted db ≠ .ok mid) := by
  refine ⟨_, rfl, atomicUpgrade_iff ?_ (Nat.zero_le _) (conforms_misnamed rfl)⟩
  rfl

/-- The second step fails for its column, and the store then has no version but 0; to
resume the upgrade is to take the first step again. -/
theorem not_atomicUpgrade_misnamed : ∃ db, transaction .granted misnamedTables .empty = .ok db ∧
    storedVersion db = .ok (some 0) ∧ db.Conforms ∧
    (ensureCurrent .granted db).result =
      .error (.migration 1 2 (.duplicateColumn "published")) ∧
    storedVersion (ensureCurrent .granted db).database = .ok (some 0) ∧
    ¬ AtomicUpgrade .granted 0 db := by
  refine ⟨_, rfl, rfl, conforms_misnamed rfl, rfl, rfl, ?_⟩
  refine not_atomicUpgrade rfl ?_ rfl
  intro hnamed
  exact absurd (hnamed _ rfl) (by decide)

end MessageCache
