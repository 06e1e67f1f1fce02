/-
# Transactions, statement by statement

A transaction succeeds when its statements succeed one after the other, so it splits
where its list of statements splits: `transaction_append`.

What is kept by every statement of a transaction is kept by the transaction.  The
relation that steps of a schema need is `Confined key`: the tables of all other keys
are the same, the indexes are the same, and a table that was there under `key` is
still there under its name.  It is a preorder, so `transaction_confined` only asks for
it statement by statement.
-/
import MessageCache.Table.Transaction

namespace MessageCache

/-! ## Results, one after the other -/

section Results

variable {ε α β : Type}

@[simp] theorem ok_bind (a : α) (f : α → Except ε β) : (Except.ok a >>= f) = f a := rfl

@[simp] theorem error_bind (e : ε) (f : α → Except ε β) :
    (Except.error e >>= f) = .error e := rfl

theorem bind_eq_ok {x : Except ε α} {f : α → Except ε β} {b : β} :
    (x >>= f) = .ok b ↔ ∃ a, x = .ok a ∧ f a = .ok b := by
  constructor
  · intro h
    cases x with
    | error e => nomatch h
    | ok a => exact ⟨a, rfl, h⟩
  · rintro ⟨a, rfl, h⟩
    exact h

theorem map_eq_ok {x : Except ε α} {f : α → β} {b : β} :
    x.map f = .ok b ↔ ∃ a, x = .ok a ∧ f a = b := by
  constructor
  · intro h
    cases x with
    | error e => nomatch h
    | ok a => exact ⟨a, rfl, Except.ok.inj h⟩
  · rintro ⟨a, rfl, rfl⟩
    rfl

end Results

/-! ## Tables of a changed database -/

namespace Database

@[simp] theorem table_altered (db : Database) : db.altered.table = db.table := rfl

@[simp] theorem table?_altered (db : Database) (name : String) :
    db.altered.table? name = db.table? name := rfl

@[simp] theorem table?_taking (db : Database) (n : Nat) (name : String) :
    (db.taking n).table? name = db.table? name := rfl

theorem table_setTable (db : Database) (name : String) (t : Table) (key : String) :
    (db.setTable name t).table key = if key = nameKey name then some t else db.table key := rfl

@[simp] theorem table?_setTable_self (db : Database) (name : String) (t : Table) :
    (db.setTable name t).table? name = some t := if_pos rfl

theorem setTable_self {db : Database} {name : String} {t : Table} (ht : db.table? name = some t) :
    db.setTable name t = db := by
  have htable : (fun k => if k = nameKey name then some t else db.table k) = db.table := by
    funext k
    split
    · rename_i hk
      rw [hk]
      exact ht.symm
    · rfl
  rw [setTable, htable]

theorem setTable_setTable (db : Database) (name : String) (t u : Table) :
    (db.setTable name t).setTable name u = db.setTable name u := by
  have htable : (fun k => if k = nameKey name then some u else (db.setTable name t).table k) =
      fun k => if k = nameKey name then some u else db.table k := by
    funext k
    rw [table_setTable]
    split <;> rfl
  rw [setTable, htable]
  rfl

theorem find_eq_ok {db : Database} {name : String} {t : Table} :
    db.find name = .ok t ↔ db.table? name = some t := by
  unfold find
  cases db.table? name <;> simp

/-! ## Changes that are confined to one table -/

/-- Two databases differ in the table with a key at most, and a table that was there
under that key is still there under its name. -/
structure Confined (key : String) (db after : Database) : Prop where
  others : ∀ k, k ≠ key → after.table k = db.table k
  indexes : after.indexes = db.indexes
  named : ∀ t, db.table key = some t → ∃ u, after.table key = some u ∧ u.name = t.name

namespace Confined

variable {key : String} {db db₁ after : Database}

theorem refl (key : String) (db : Database) : Confined key db db where
  others _ _ := rfl
  indexes := rfl
  named t ht := ⟨t, ht, rfl⟩

theorem trans (h : Confined key db db₁) (h' : Confined key db₁ after) : Confined key db after where
  others k hk := (h'.others k hk).trans (h.others k hk)
  indexes := h'.indexes.trans h.indexes
  named t ht := by
    obtain ⟨u, hu, hname⟩ := h.named t ht
    obtain ⟨w, hw, hname'⟩ := h'.named u hu
    exact ⟨w, hw, hname'.trans hname⟩

/-- Putting a table in the place of one of the same name. -/
theorem setTable {name : String} {t u : Table} (ht : db.table? name = some t)
    (hu : u.name = t.name) : Confined (nameKey name) db (db.setTable name u) where
  others _ hk := if_neg hk
  indexes := rfl
  named w hw := by
    obtain rfl : w = t := Option.some.inj (hw.symm.trans ht)
    exact ⟨u, if_pos rfl, hu⟩

/-- Putting a table where there was none. -/
theorem setTable_new {name : String} (t : Table) (ht : db.table? name = none) :
    Confined (nameKey name) db (db.setTable name t) where
  others _ hk := if_neg hk
  indexes := rfl
  named _ hw := nomatch hw.symm.trans ht

/-- Counters do not matter. -/
theorem altered (h : Confined key db after) : Confined key db after.altered where
  others := h.others
  indexes := h.indexes
  named := h.named

theorem taking (h : Confined key db after) (n : Nat) : Confined key db (after.taking n) where
  others := h.others
  indexes := h.indexes
  named := h.named

theorem table?_of_ne (h : Confined key db after) {name : String} (hn : nameKey name ≠ key) :
    after.table? name = db.table? name := h.others _ hn

theorem hasTableNamed_of_ne (h : Confined key db after) {name : String}
    (hn : nameKey name ≠ key) : after.hasTableNamed name = db.hasTableNamed name := by
  unfold hasTableNamed
  rw [h.table?_of_ne hn]

/-- A table that was there is listed under the same name, case included. -/
theorem hasTableNamed_of_isSome {name : String} (h : Confined (nameKey name) db after)
    (hdb : (db.table? name).isSome) : after.hasTableNamed name = db.hasTableNamed name := by
  obtain ⟨t, ht⟩ := Option.isSome_iff_exists.mp hdb
  obtain ⟨u, hu, hname⟩ := h.named t ht
  have hu' : after.table? name = some u := hu
  unfold hasTableNamed
  rw [ht, hu']
  simp only [hname]

end Confined

end Database

/-! ## Transactions -/

@[simp] theorem Statement.execute_granted (s : Statement) (db : Database) :
    s.execute .granted db = s.run db := by
  unfold execute
  cases h : s.run db with
  | error e => rfl
  | ok after => cases after <;> rfl

/-- Access does not change what it allows. -/
theorem Statement.run_of_execute {s : Statement} {access : WriteAccess} {db : Database}
    {after : Option Database} (h : s.execute access db = .ok after) : s.run db = .ok after := by
  unfold execute at h
  split at h
  · rename_i hrun
    rw [hrun, h]
  · cases access with
    | granted => exact h
    | refused =>
        cases hrun : s.run db with
        | error e => simp [hrun, WriteAccess.pass] at h
        | ok a => simp [hrun, WriteAccess.pass] at h
    | blocked fault =>
        cases hrun : s.run db with
        | error e => simp [hrun, WriteAccess.pass] at h
        | ok a => simp [hrun, WriteAccess.pass] at h

theorem transaction_granted {access : WriteAccess} {statements : List Statement}
    {db after : Database} (h : transaction access statements db = .ok after) :
    transaction .granted statements db = .ok after := by
  induction statements generalizing db with
  | nil => exact h
  | cons s rest ih =>
      unfold transaction at h ⊢
      rw [List.foldlM_cons, bind_eq_ok] at h ⊢
      obtain ⟨mid, hmid, hrest⟩ := h
      obtain ⟨r, hr, rfl⟩ := map_eq_ok.mp hmid
      refine ⟨_, map_eq_ok.mpr ⟨r, ?_, rfl⟩, ih hrest⟩
      rw [Statement.execute_granted]
      exact Statement.run_of_execute hr

theorem transaction_cons (s : Statement) (rest : List Statement) (db : Database) :
    transaction .granted (s :: rest) db =
      s.run db >>= fun after => transaction .granted rest (after.getD db) := by
  unfold transaction
  rw [List.foldlM_cons, Statement.execute_granted]
  cases s.run db <;> rfl

theorem transaction_append (first rest : List Statement) (db : Database) :
    transaction .granted (first ++ rest) db =
      transaction .granted first db >>= transaction .granted rest := by
  unfold transaction
  rw [List.foldlM_append]

/-- What every statement of a transaction keeps, the transaction keeps. -/
theorem transaction_keeps {P : Database → Prop} {statements : List Statement}
    (hs : ∀ s ∈ statements, ∀ db after, P db → s.run db = .ok (some after) → P after)
    {db after : Database} (hdb : P db) (h : transaction .granted statements db = .ok after) :
    P after := by
  induction statements generalizing db with
  | nil => cases h; exact hdb
  | cons s rest ih =>
      rw [transaction_cons, bind_eq_ok] at h
      obtain ⟨mid, hmid, hrest⟩ := h
      have hlater : ∀ u ∈ rest, ∀ db after, P db → u.run db = .ok (some after) → P after :=
        fun u hu => hs u (List.mem_cons_of_mem s hu)
      cases mid with
      | none => exact ih hlater hdb hrest
      | some mid => exact ih hlater (hs s List.mem_cons_self db mid hdb hmid) hrest

/-- A transaction is confined to a table if each of its statements is. -/
theorem transaction_confined {key : String} {statements : List Statement}
    (hs : ∀ s ∈ statements, ∀ db after, s.run db = .ok (some after) →
      Database.Confined key db after)
    {db after : Database} (h : transaction .granted statements db = .ok after) :
    Database.Confined key db after :=
  transaction_keeps (P := Database.Confined key db)
    (fun s hmem mid later hmid hrun => hmid.trans (hs s hmem mid later hrun))
    (.refl key db) h

end MessageCache
