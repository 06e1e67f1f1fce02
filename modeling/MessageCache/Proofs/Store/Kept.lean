/-
# What the rows of a store keep

`Store.Keeps db kept`: the rows of the messages, read one by one as a poll reads them, are
these messages, each in the state that its flag says.  No condition and no order of a query
is in this, so what is said of `kept` is said of all rows of the table and of nothing else;
there is at most one such list (`Store.Keeps.unique`).

A database that represents entries keeps their messages, in the order of its rows
(`Represents.keeps`).  After any calls on a new store the ids of the rows ascend
(`Contents.Ordered.run`), so that a row which is added stands between rows that are as they
were.
-/
import MessageCache.Proofs.Store.Listing

namespace MessageCache

/-! ## Rows that are read -/

/-- A stored message and the state that it is in. -/
abbrev Kept := Message × DeliveryState

/-- The row reads as a message, and its flag says the state. -/
structure Row.Reads (t : Table) (r : Row) (k : Kept) : Prop where
  message : readMessage (Database.project t messageColumns r) = .ok k.1
  state : r.cell "published" = .ofBool k.2.isPublished

/-- The rows of the messages read as these, one by one. -/
def Store.Keeps (db : Database) (kept : List Kept) : Prop :=
  ∃ t, db.table? messagesTable = some t ∧ List.Forall₂ (Row.Reads t) t.rows kept

section Reads

variable {db : Database} {t : Table} {r : Row}

theorem DeliveryState.eq_of_flag {s s' : DeliveryState}
    (h : Cell.ofBool s.isPublished = .ofBool s'.isPublished) : s = s' := by
  revert h
  cases s <;> cases s' <;> decide

theorem Row.Reads.unique {k k' : Kept} (h : r.Reads t k) (h' : r.Reads t k') : k = k' :=
  Prod.ext (Except.ok.inj (h.message.symm.trans h'.message))
    (DeliveryState.eq_of_flag (h.state.symm.trans h'.state))

/-- All rows are read in one way. -/
theorem Store.Keeps.unique {kept kept' : List Kept} (h : Keeps db kept) (h' : Keeps db kept') :
    kept = kept' := by
  obtain ⟨t, ht, hrows⟩ := h
  obtain ⟨t', ht', hrows'⟩ := h'
  obtain rfl : t = t' := Option.some.inj (ht.symm.trans ht')
  exact List.right_unique_forall₂' (fun _ _ _ hk hk' => hk.unique hk') hrows hrows'

theorem Store.Keeps.iff_eq {kept kept' : List Kept} (h : Keeps db kept) :
    Keeps db kept' ↔ kept' = kept := by
  constructor
  · exact fun h' => h'.unique h
  · rintro rfl
    exact h

end Reads

/-! ## Entries -/

namespace Contents

/-- The messages of all entries with their states. -/
def kept (es : Contents) : List Kept := es.map fun e => (e.message, e.state)

/-- The ids of the rows ascend. -/
def Ordered (es : Contents) : Prop := es.rowIds.Pairwise (· < ·)

variable {es : Contents} {m : Message} {s : DeliveryState}

theorem mem_kept : (m, s) ∈ es.kept ↔ es.Has m s := by
  simp only [kept, Has, List.mem_map, Prod.mk.injEq]

/-- Around a free id what is ordered by ids falls into two parts. -/
theorem filter_append_filter {α : Type} {key : α → Int} {id : Int} {xs : List α}
    (hxs : (xs.map key).Pairwise (· < ·)) (hfree : ∀ x ∈ xs, key x ≠ id) :
    xs.filter (fun x => key x < id) ++ xs.filter (fun x => id < key x) = xs := by
  rw [filter_above hfree]
  refine filter_append_filter_not (List.pairwise_map.mp hxs) ?_
  intro a b hab hb
  rw [decide_eq_true_eq] at hb ⊢
  omega

theorem Ordered.place (h : es.Ordered) (e : Entry) : (es.place e).Ordered := by
  have hes := List.pairwise_map.mp h
  refine List.pairwise_map.mpr (List.pairwise_append.mpr ⟨hes.filter _, ?_, ?_⟩)
  · refine List.pairwise_cons.mpr ⟨?_, hes.filter _⟩
    intro d hd
    exact of_decide_eq_true (List.mem_filter.mp hd).2
  · intro c hc d hd
    have hlt : c.rowId < e.rowId := of_decide_eq_true (List.mem_filter.mp hc).2
    rcases List.mem_cons.mp hd with rfl | hd
    · exact hlt
    · exact Int.lt_trans hlt (of_decide_eq_true (List.mem_filter.mp hd).2)

/-- A call puts a row in its place, or leaves the ids of the rows that stay. -/
theorem Ordered.after (h : es.Ordered) (call : Store.Call) : (es.after call).Ordered := by
  cases call with
  | add m now =>
      show ((es.add m now).toOption.getD es).Ordered
      cases hadd : es.add m now with
      | error e => exact h
      | ok es' =>
          obtain ⟨-, -, rfl⟩ := add_eq_ok.mp hadd
          exact h.place _
  | mark id =>
      unfold Ordered rowIds
      rw [map_after_mark fun _ => rfl]
      exact h
  | prune olderThan => exact List.Pairwise.sublist (List.filter_sublist.map _) h
  | since _ _ _ | due _ | state _ | count _ | total | topics | size _ _ | expired _ => exact h

theorem Ordered.run (h : es.Ordered) (calls : List Store.Call) : (es.run calls).2.Ordered := by
  induction calls generalizing es with
  | nil => exact h
  | cons call rest ih => exact ih (h.after call)

theorem ordered_run (calls : List Store.Call) : (run [] calls).2.Ordered :=
  have hnil : Ordered [] := List.Pairwise.nil
  hnil.run calls

end Contents

/-- The rows read as the entries that they hold. -/
theorem Represents.keeps {db : Database} {es : Contents} (h : Represents db es) :
    Store.Keeps db es.kept := by
  obtain ⟨t, ht, hcurrent, hrows⟩ := h.exists_table
  refine ⟨t, ht, List.forall₂_map_right_iff.mpr (hrows.imp ?_)⟩
  intro r e hr
  exact ⟨hr.readMessage hcurrent, hr.published⟩

end MessageCache
