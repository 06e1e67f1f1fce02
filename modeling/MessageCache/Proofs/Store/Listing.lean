/-
# What a listing shows of each message

A poll lists some of the entries in the order of their times, and so does the question for
what is due.  No id is there twice.  So of all messages of a listing, those with the id of
an entry are that message alone, or none:

    having id (listing p)  =  [m]     if the condition means the entry of m
                              []      otherwise                (`Distinct.having_listing`)

Which entries a condition means is then all that is left to ask.
-/
import MessageCache.Proofs.Store.LifeCycle

namespace MessageCache

/-- Those of some messages that have an id. -/
def Store.having (id : String) (ms : List Message) : List Message := ms.filter fun m => m.id = id

namespace Contents

variable {es : Contents} {e : Entry} {p q : Entry → Bool}

theorem time_total (a b : Entry) : decide (a.message.time ≤ b.message.time) = true ∨
    decide (b.message.time ≤ a.message.time) = true := by
  simpa only [decide_eq_true_eq] using Int64.le_total a.message.time b.message.time

theorem time_trans (a b c : Entry) (hab : decide (a.message.time ≤ b.message.time) = true)
    (hbc : decide (b.message.time ≤ c.message.time) = true) :
    decide (a.message.time ≤ c.message.time) = true := by
  rw [decide_eq_true_eq] at hab hbc ⊢
  exact Int64.le_trans hab hbc

theorem listing_ordered (es : Contents) (p : Entry → Bool) :
    (es.listing p).Pairwise fun m m' => m.time ≤ m'.time := by
  have hsorted := pairwise_sortBy time_total time_trans (es.filter p)
  rw [listing, List.pairwise_map]
  exact hsorted.imp of_decide_eq_true

/-- Each entry is the only one with its id. -/
theorem Distinct.filter_hasId (h : es.Distinct) (he : e ∈ es) :
    es.filter (Entry.hasId e.message.id) = [e] := by
  induction es with
  | nil => cases he
  | cons d rest ih =>
      obtain ⟨hnew, hrest⟩ := List.nodup_cons.mp h
      rcases List.mem_cons.mp he with rfl | he
      · have hnone : rest.filter (Entry.hasId e.message.id) = [] := by
          rw [List.filter_eq_nil_iff]
          intro d hd hid
          exact hnew (List.mem_map.mpr ⟨d, hd, Entry.hasId_iff.mp hid⟩)
        rw [List.filter_cons_of_pos (Entry.hasId_iff.mpr rfl), hnone]
      · have hne : ¬ d.hasId e.message.id = true := by
          intro hid
          exact hnew (List.mem_map.mpr ⟨e, he, (Entry.hasId_iff.mp hid).symm⟩)
        rw [List.filter_cons_of_neg hne, ih hrest he]

/-- To choose among what is in order is to order what is chosen. -/
theorem filter_byTime :
    (byTime (es.filter p)).filter q = byTime (es.filter fun e => q e && p e) := by
  rw [← List.filter_filter]
  exact filter_sortBy time_total time_trans q _

theorem filter_listing {g : Message → Bool} :
    (es.listing p).filter g = es.listing fun e => g e.message && p e := by
  unfold listing
  rw [List.filter_map, filter_byTime]
  rfl

/-- Of a listing the messages with the id of an entry are its message, or none. -/
theorem Distinct.having_listing (h : es.Distinct) (he : e ∈ es) (p : Entry → Bool) :
    Store.having e.message.id (es.listing p) = if p e then [e.message] else [] := by
  have hchosen : (es.filter fun d => d.hasId e.message.id && p d) = [e].filter p := by
    rw [← h.filter_hasId he, List.filter_filter]
    exact List.filter_congr fun d _ => Bool.and_comm _ _
  have hlisting : Store.having e.message.id (es.listing p) =
      (byTime ([e].filter p)).map (·.message) := by
    rw [← hchosen]
    exact filter_listing
  rw [hlisting]
  cases hp : p e <;> simp [hp, byTime, sortBy, insertBy]

theorem Distinct.nodup_listing (h : es.Distinct) (p : Entry → Bool) :
    ((es.listing p).map (·.id)).Nodup := by
  have hperm : (byTime (es.filter p)).Perm (es.filter p) := sortBy_perm _
  have hids : ((es.filter p).map (·.message.id)).Nodup :=
    List.Nodup.sublist (List.filter_sublist.map _) h
  rw [listing, List.map_map]
  exact (hperm.map (·.message.id)).nodup_iff.mpr hids

theorem listing_filter : listing p (es.filter q) = es.listing fun e => p e && q e := by
  rw [listing, List.filter_filter, listing]

end Contents

/-! ## Listings of a store -/

section Listings

variable {db : Database} {es : Contents}

theorem Represents.messagesSince_at (h : Represents db es) (topic : String) (time : Int64)
    (scheduled : Bool) : Store.messagesSince db topic (.at time) scheduled =
      .ok (es.listing (Entry.isSince topic time scheduled)) := by
  obtain ⟨t, ht, hcurrent, hrows⟩ := h.exists_table
  exact messagesSince_eq ht hcurrent hrows topic (.at time) scheduled

theorem Represents.messagesDue (h : Represents db es) (now : Int64) :
    Store.messagesDue db now = .ok (es.listing (Entry.isDue now)) := by
  obtain ⟨t, ht, hcurrent, hrows⟩ := h.exists_table
  exact messagesDue_eq ht hcurrent hrows now

theorem Represents.messageState (h : Represents db es) (id : String) :
    Store.messageState db id = .ok ((es.find? (Entry.hasId id)).map (·.state)) := by
  obtain ⟨t, ht, hcurrent, hrows⟩ := h.exists_table
  exact messageState_eq ht hcurrent hrows id

end Listings

end MessageCache
