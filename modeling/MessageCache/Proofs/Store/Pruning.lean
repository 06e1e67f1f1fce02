/-
# What a pruning takes out

A pruning takes out the messages that are published and from before a time, and nothing
else (`Store.Prunes`):

    answer      how many there are
    rows        the others stay as they are, in their order; no other table is looked at
    due         what is due is scheduled, so at no moment is any of it taken out

Two prunings one after the other come down to one: a message is older than one of two times
iff it is older than the later of them,

    prune b (prune a db)  =  prune (max a b) db

and the numbers add up, since nothing is taken out twice (`Store.PrunesAtOnce`).
-/
import MessageCache.Proofs.Store.Kept

namespace MessageCache

/-- It is published and from before a time. -/
def Kept.isOld (olderThan : Int64) (k : Kept) : Bool := k.1.time < olderThan ∧ k.2 = .published

namespace Store

/-- What a pruning does to a store that keeps these messages. -/
structure Prunes (db : Database) (kept : List Kept) (olderThan : Int64) : Prop where
  answer : ((Call.prune olderThan).run db).1 = .ok (.pruned (kept.countP (Kept.isOld olderThan)))
  keeps : Keeps ((Call.prune olderThan).run db).2 (kept.filter fun k => !Kept.isOld olderThan k)
  /-- The rows that stay are rows that were there, and all else is as it was. -/
  rows : ∃ t rows, db.table? messagesTable = some t ∧ rows.Sublist t.rows ∧
    ((Call.prune olderThan).run db).2 = db.setTable messagesTable { t with rows }
  due : ∀ now, ∃ due, messagesDue db now = .ok due ∧
    messagesDue ((Call.prune olderThan).run db).2 now = .ok due

/-- Two prunings do what one does that goes up to the later of their times. -/
structure PrunesAtOnce (db : Database) (a b : Int64) : Prop where
  database : ((Call.prune b).run ((Call.prune a).run db).2).2 = ((Call.prune (max a b)).run db).2
  numbers : ∃ i j, ((Call.prune a).run db).1 = .ok (.pruned i) ∧
    ((Call.prune b).run ((Call.prune a).run db).2).1 = .ok (.pruned j) ∧
    ((Call.prune (max a b)).run db).1 = .ok (.pruned (i + j))

end Store

/-! ## The later of two times -/

theorem time_lt_max_iff {a b time : Int64} : time < max a b ↔ time < a ∨ time < b := by
  have hmax : max a b = if a ≤ b then b else a := rfl
  rw [hmax]
  split
  · rename_i hab
    exact ⟨.inr, fun h => h.elim (fun hlt => Int64.lt_of_lt_of_le hlt hab) id⟩
  · rename_i hba
    have hba : b < a := Int64.not_le.mp hba
    exact ⟨.inl, fun h => h.elim id fun hlt => Int64.lt_trans hlt hba⟩

/-- What is older than the later of two times is older than one of them. -/
theorem Kept.isOld_max (a b : Int64) (k : Kept) :
    Kept.isOld (max a b) k = (Kept.isOld a k || Kept.isOld b k) := by
  rw [Bool.eq_iff_iff, Bool.or_eq_true]
  simp only [isOld, decide_eq_true_eq, time_lt_max_iff, or_and_right]

/-- What is old by one of two conditions is counted once: by the first, or else by the
second. -/
theorem countP_or_eq_add {α : Type} (p q : α → Bool) (xs : List α) :
    xs.countP (fun x => p x || q x) = xs.countP p + (xs.filter fun x => !p x).countP q := by
  rw [List.countP_eq_countP_filter_add xs _ p]
  congr 1
  · rw [List.countP_filter]
    exact List.countP_congr fun x _ => by cases p x <;> simp
  · rw [List.countP_filter, List.countP_filter]
    exact List.countP_congr fun x _ => by cases p x <;> simp

/-! ## Prunings of contents -/

section Prunings

variable {db : Database} {es : Contents} {c : Int64}

namespace Contents

theorem kept_after_prune :
    (es.after (.prune c)).kept = es.kept.filter fun k => !Kept.isOld c k := by
  rw [kept, kept, List.filter_map]
  rfl

theorem countP_isPruned : es.countP (Entry.isPruned c) = es.kept.countP (Kept.isOld c) := by
  rw [kept, List.countP_map]
  rfl

/-- What is due is not taken out. -/
theorem listing_isDue_after_prune (now : Int64) :
    (es.after (.prune c)).listing (Entry.isDue now) = es.listing (Entry.isDue now) := by
  have hdue : ∀ e : Entry, (e.isDue now && !e.isPruned c) = e.isDue now := by
    intro e
    unfold Entry.isDue Entry.isPruned
    cases e.state <;> simp
  rw [after, listing_filter]
  exact congrArg es.listing (funext hdue)

end Contents

/-- The database after a pruning has the rows that were not asked for. -/
theorem Store.Call.run_prune {t : Table} (ht : db.table? messagesTable = some t)
    (hcurrent : t.IsCurrent) : (Store.Call.prune c).run db =
      (.ok (.pruned (t.rows.countP fun r => (Store.pruneCondition c).holds t r)),
        db.setTable messagesTable { t with
          rows := t.rows.filter fun r => !(Store.pruneCondition c).holds t r }) := by
  rw [Store.Call.run, prune_of_current ht hcurrent]
  rfl

theorem Represents.prunes (h : Represents db es) (c : Int64) : Store.Prunes db es.kept c := by
  obtain ⟨after, hrun, hafter⟩ := h.call (.prune c)
  constructor
  case answer =>
    rw [hrun, ← Contents.countP_isPruned]
    rfl
  case keeps =>
    rw [hrun, ← Contents.kept_after_prune]
    exact hafter.keeps
  case rows =>
    obtain ⟨t, ht, hcurrent, -⟩ := h.exists_table
    exact ⟨t, _, ht, List.filter_sublist, by rw [Store.Call.run_prune ht hcurrent]⟩
  case due =>
    intro now
    refine ⟨_, h.messagesDue now, ?_⟩
    rw [hrun, hafter.messagesDue, Contents.listing_isDue_after_prune]

/-- A row is older than the later of two times iff it is older than one of them. -/
theorem Row.Holds.pruneCondition_max {t : Table} {r : Row} {e : Entry} (hcurrent : t.IsCurrent)
    (h : r.Holds e) (a b : Int64) : (Store.pruneCondition (max a b)).holds t r =
      ((Store.pruneCondition a).holds t r || (Store.pruneCondition b).holds t r) := by
  rw [h.pruneCondition hcurrent, h.pruneCondition hcurrent, h.pruneCondition hcurrent]
  exact Kept.isOld_max a b (e.message, e.state)

theorem Represents.prunesAtOnce (h : Represents db es) (a b : Int64) :
    Store.PrunesAtOnce db a b := by
  obtain ⟨t, ht, hcurrent, hrows⟩ := h.exists_table
  constructor
  case database =>
    have hmid : (db.setTable messagesTable { t with
        rows := t.rows.filter fun r => !(Store.pruneCondition a).holds t r }).table? messagesTable =
          some _ := Database.table?_setTable_self db messagesTable _
    rw [Store.Call.run_prune ht hcurrent, Store.Call.run_prune hmid hcurrent,
      Store.Call.run_prune ht hcurrent, Database.setTable_setTable]
    simp only [List.filter_filter]
    congr 2
    apply List.filter_congr
    intro r hr
    obtain ⟨e, -, he⟩ := forall₂_exists_left hrows.flip hr
    rw [he.pruneCondition_max hcurrent, Bool.not_or, Bool.and_comm]
    rfl
  case numbers =>
    obtain ⟨after, hrun, hafter⟩ := h.call (.prune a)
    have hsecond : ((Store.Call.prune b).run ((Store.Call.prune a).run db).2).1 =
        .ok (.pruned ((es.after (.prune a)).kept.countP (Kept.isOld b))) := by
      rw [hrun]
      exact (hafter.prunes b).answer
    refine ⟨_, _, (h.prunes a).answer, hsecond, ?_⟩
    have hmax : Kept.isOld (max a b) = fun k => Kept.isOld a k || Kept.isOld b k :=
      funext (Kept.isOld_max a b)
    rw [(h.prunes (max a b)).answer, hmax, countP_or_eq_add, Contents.kept_after_prune]

/-- The second of two prunings up to the same time finds nothing. -/
theorem Store.PrunesAtOnce.again (h : Store.PrunesAtOnce db c c) :
    (Store.Call.prune c).run ((Store.Call.prune c).run db).2 =
      (.ok (.pruned 0), ((Store.Call.prune c).run db).2) := by
  have hmax : max c c = c := ite_self _
  obtain ⟨i, j, hfirst, hsecond, hboth⟩ := h.numbers
  have hdatabase := h.database
  rw [hmax] at hdatabase hboth
  have hsum : i = i + j := by simpa using hfirst.symm.trans hboth
  have hnone : j = 0 := by omega
  exact Prod.ext (hnone ▸ hsecond) hdatabase

end Prunings

/-- Whatever was called before, a pruning takes out what is published and old, and two
prunings take out what one does that goes up to the later time; the second of two that go
up to the same time finds nothing. -/
theorem prunes_of_calls (calls : List Store.Call) :
    ∃ kept, (∀ kept', Store.Keeps (Store.after calls) kept' ↔ kept' = kept) ∧
      (∀ c, Store.Prunes (Store.after calls) kept c) ∧
      (∀ a b, Store.PrunesAtOnce (Store.after calls) a b) ∧
      ∀ c, (Store.Call.prune c).run ((Store.Call.prune c).run (Store.after calls)).2 =
        (.ok (.pruned 0), ((Store.Call.prune c).run (Store.after calls)).2) := by
  have hcontents := represents_after calls
  refine ⟨_, fun _ => hcontents.keeps.iff_eq, hcontents.prunes, hcontents.prunesAtOnce, ?_⟩
  intro c
  exact (hcontents.prunesAtOnce c c).again

end MessageCache
