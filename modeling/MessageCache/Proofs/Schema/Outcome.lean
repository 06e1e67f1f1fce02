/-
# How an upgrade ends

An upgrade ends in one of six ways, and each of them says what was read of the store, what
has become of it and what was reported (`Ends`).  Whatever is to be known of upgrades is
read off these cases (`ensureCurrent_ends`):

    unread, newer      the version is refused, and nothing has happened
    uncreated          the tables of a new store cannot be made, and nothing has happened
    created            they were made
    climbed, stopped   the steps up to a version were taken, all of them or as many as succeed
-/
import MessageCache.Proofs.Schema.Resume

namespace MessageCache

/-- The upgrade has this result, leaves this database and has reported this. -/
structure Upgrade.Is (u : Upgrade) (result : Except StoreError Nat) (db : Database)
    (progress : List Progress) : Prop where
  result : u.result = result
  database : u.database = db
  progress : u.progress = progress

/-- The ways in which an upgrade ends. -/
inductive Ends (access : WriteAccess) (db : Database) (u : Upgrade) : Prop
  | unread {e : StoreError} (hv : storedVersion db = .error e) (hu : u.Is (.error e) db [])
  | newer {v : Nat} (hv : storedVersion db = .ok (some v)) (hlt : Layout.currentVersion < v)
      (hu : u.Is (.error (.unsupportedVersion v Layout.currentVersion)) db [])
  | uncreated {fault : Fault} (hv : storedVersion db = .ok none)
      (h : transaction access createFresh db = .error fault)
      (hu : u.Is (.error (.database fault)) db [])
  | created {after : Database} (hv : storedVersion db = .ok none)
      (h : transaction access createFresh db = .ok after)
      (hu : u.Is (.ok Layout.currentVersion) after [.createdFresh Layout.currentVersion])
  | climbed {v : Nat} {after : Database} (hv : storedVersion db = .ok (some v))
      (h : Climbs access v db Layout.currentVersion after)
      (hu : u.Is (.ok Layout.currentVersion) after
        (reported v Layout.currentVersion ++ [.upToDate Layout.currentVersion]))
  | stopped {v k : Nat} {s : Step} {fault : Fault} {after : Database}
      (hv : storedVersion db = .ok (some v)) (h : Climbs access v db k after)
      (hs : Step.leadingFrom? k = some s) (hfault : s.apply access after = .error fault)
      (hu : u.Is (.error (.migration k (k + 1) fault)) after
        (reported v k ++ [.stepStarted k (k + 1) s.name]))

section Upgrades

variable {access : WriteAccess} {db after : Database} {v k : Nat}

theorem Climbs.climb_is (h : Climbs access v db Layout.currentVersion after) :
    (Upgrade.climb access (Layout.currentVersion - v) v db).Is (.ok Layout.currentVersion) after
      (reported v Layout.currentVersion ++ [.upToDate Layout.currentVersion]) := by
  rw [h.climb_eq, Nat.sub_self]
  exact ⟨rfl, rfl, rfl⟩

theorem ensureCurrent_ends (access : WriteAccess) (db : Database) :
    Ends access db (ensureCurrent access db) := by
  cases hv : storedVersion db with
  | error e =>
      refine .unread hv ?_
      rw [ensureCurrent, hv]
      exact ⟨rfl, rfl, rfl⟩
  | ok version =>
      cases version with
      | none =>
          cases h : transaction access createFresh db with
          | error fault =>
              refine .uncreated hv h ?_
              simp only [ensureCurrent, hv, h]
              exact ⟨rfl, rfl, rfl⟩
          | ok after =>
              refine .created hv h ?_
              simp only [ensureCurrent, hv, h]
              exact ⟨rfl, rfl, rfl⟩
      | some v =>
          by_cases hlt : Layout.currentVersion < v
          · refine .newer hv hlt ?_
            simp only [ensureCurrent, hv, if_pos hlt]
            exact ⟨rfl, rfl, rfl⟩
          · have hle := Nat.not_lt.mp hlt
            have hclimb : ensureCurrent access db = _ := ensureCurrent_eq_climb hv hle
            obtain ⟨k, after, hclimbs, rfl | ⟨s, fault, hs, hfault⟩⟩ := exists_climbs access db hle
            · exact .climbed hv hclimbs (hclimb ▸ hclimbs.climb_is)
            · obtain ⟨hresult, hdatabase, hprogress⟩ := hclimbs.climb_failed hs hfault
              exact .stopped hv hclimbs hs hfault (hclimb ▸ ⟨hresult, hdatabase, hprogress⟩)

/-- The steps that are taken are never those of a new store, and are not reported as such. -/
theorem createdFresh_notMem_reported (v k n : Nat) : .createdFresh n ∉ reported v k := by
  intro hmem
  obtain ⟨s, -, hs⟩ := List.mem_flatMap.mp hmem
  simp at hs

/-- A version is refused because it cannot be read, or because the record cannot be asked for. -/
theorem storedVersion_eq_error {e : StoreError} (h : storedVersion db = .error e) :
    e = .corruptStore ∨ ∃ fault, e = .database fault := by
  unfold storedVersion at h
  split at h
  · cases h
  · split at h
    · cases h
    · split at h
      · cases h
        exact .inr ⟨_, rfl⟩
      · cases h
        exact .inl rfl
      · split at h
        · cases h
          exact .inl rfl
        · rename_i n _
          unfold versionOfInteger at h
          split at h
          · cases h
          · cases h
            exact .inl rfl

/-- There is a step for every version that one can get to. -/
theorem ensureCurrent_ne_missingMigration (n : Nat) :
    (ensureCurrent access db).result ≠ .error (.missingMigration n) := by
  intro h
  cases ensureCurrent_ends access db with
  | unread hv hu =>
      have he := Except.error.inj (hu.result.symm.trans h)
      subst he
      rcases storedVersion_eq_error hv with he | ⟨fault, he⟩ <;> cases he
  | newer hv hlt hu => cases hu.result.symm.trans h
  | uncreated hv hfault hu => cases hu.result.symm.trans h
  | created hv hok hu => cases hu.result.symm.trans h
  | climbed hv hclimbs hu => cases hu.result.symm.trans h
  | stopped hv hclimbs hs hfault hu => cases hu.result.symm.trans h

end Upgrades

end MessageCache
