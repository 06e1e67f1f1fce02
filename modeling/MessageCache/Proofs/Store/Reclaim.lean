/-
# An attachment is charged or it is listed for reclaiming

A file that is attached to a message counts against its owner until it expires, and from
then on its message is listed, so that the file can be removed.  The two are asked for by
conditions of their own, and they fit together around the time to expire at:

    expires             charged                 listed
    zero                at every moment         never
    positive            up to that moment       from the next moment on
    negative            up to that moment       never

No attachment is both.  One that says that it expired before the beginning of time is
neither, once that is in the past: nobody pays for its file and nobody is told to remove it
(`charged_xor_listed_iff`).
-/
import MessageCache.Proofs.Store.RoundTrip

namespace MessageCache

/-! ## What is summed and what is listed -/

namespace Store

/-- The rows whose sizes an owner is charged for. -/
def chargedRows (t : Table) (owner : String) (now : Int64) : List Row :=
  Database.chosenRows t (chargedCondition owner now) none

/-- The sum of their sizes. -/
def chargedTotal (t : Table) (owner : String) (now : Int64) : Except Fault Cell :=
  (Database.Total.ofCells ((chargedRows t owner now).map (·.cell "attachment_size"))).result

/-- The row of the message with this id is summed up for the owner. -/
def Charged (db : Database) (owner : String) (now : Int64) (id : String) : Prop :=
  ∃ t, db.table? messagesTable = some t ∧
    ∃ r ∈ chargedRows t owner now, r.cell "id" = .ofString id

/-- The message with this id is listed as one whose attachment expired. -/
def Listed (db : Database) (now : Int64) (id : String) : Prop :=
  ∃ ids, attachmentsExpired db now = .ok ids ∧ id ∈ ids

end Store

/-- The total of an owner is the sum over the charged rows. -/
theorem attachmentsSize_eq_total {db : Database} {t : Table}
    (ht : db.table? messagesTable = some t) (hcurrent : t.IsCurrent) (owner : String)
    (now : Int64) : Store.attachmentsSize db owner now =
      (Store.chargedTotal t owner now).mapError StoreError.database >>= Store.readTotal := by
  have hknown : t.missing? ["attachment_size", "attachment_present", "attachment_owner",
      "attachment_expires", "attachment_expires"] = none := hcurrent.missing?_eq_none (by decide)
  obtain ⟨column, hflatten⟩ :=
    exists_column_project hcurrent "attachment_size" (by decide) (by decide)
  unfold Store.attachmentsSize Database.sum
  rw [Database.select_eq ht hknown, ok_bind, hflatten, List.map_map]
  rfl

/-! ## Around the time to expire at -/

section Moments

/-- An attachment is not both, and it is neither where it expired before time zero. -/
theorem charged_or_expired (expires now : Int64) :
    ¬ ((expires = 0 ∨ now ≤ expires) ∧ 0 < expires ∧ expires < now) ∧
      ((expires = 0 ∨ now ≤ expires) ∨ 0 < expires ∧ expires < now ↔
        0 ≤ expires ∨ now ≤ expires) := by
  have hzero : expires = 0 ↔ expires.toInt = 0 := by
    rw [← Int64.toInt_zero, Int64.toInt_inj]
  rw [hzero]
  simp only [Int64.le_iff_toInt_le, Int64.lt_iff_toInt_lt, Int64.toInt_zero]
  omega

variable {db : Database} {es : Contents} {e : Entry} {a : Attachment}

theorem Represents.charged_iff (h : Represents db es) (he : e ∈ es)
    (ha : e.message.attachment = some a) (now : Int64) :
    Store.Charged db a.owner now e.message.id ↔ a.expires = 0 ∨ now ≤ a.expires := by
  obtain ⟨t, ht, hcurrent, hrows⟩ := h.exists_table
  have hchosen :=
    forall₂_filter (fun r e hr => hr.chargedCondition hcurrent a.owner now) hrows
  have hids : (Store.chargedRows t a.owner now).map (·.cell "id") =
      (es.filter (Entry.isCharged a.owner now)).map fun e => .ofString e.message.id :=
    map_eq_of_forall₂ (fun _ _ hr => hr.1.id) hchosen
  have hmem : Store.Charged db a.owner now e.message.id ↔
      Cell.ofString e.message.id ∈ (Store.chargedRows t a.owner now).map (·.cell "id") := by
    simp [Store.Charged, ht, List.mem_map]
  have hcharged : e.isCharged a.owner now = true ↔ a.expires = 0 ∨ now ≤ a.expires := by
    simp [Entry.isCharged, ha]
  rw [hmem, hids, List.mem_map, ← hcharged]
  constructor
  · rintro ⟨d, hd, hid⟩
    obtain ⟨hd, hdcharged⟩ := List.mem_filter.mp hd
    obtain rfl := h.distinct.eq_of_id hd he (Cell.ofString_inj.mp hid)
    exact hdcharged
  · intro hcharged
    exact ⟨e, List.mem_filter.mpr ⟨he, hcharged⟩, rfl⟩

theorem Represents.listed_iff (h : Represents db es) (he : e ∈ es)
    (ha : e.message.attachment = some a) (now : Int64) :
    Store.Listed db now e.message.id ↔ 0 < a.expires ∧ a.expires < now := by
  obtain ⟨t, ht, hcurrent, hrows⟩ := h.exists_table
  have hexpired : e.isExpired now = true ↔ 0 < a.expires ∧ a.expires < now := by
    simp [Entry.isExpired, ha]
  rw [Store.Listed, attachmentsExpired_eq ht hcurrent hrows, ← hexpired]
  constructor
  · rintro ⟨ids, hids, hid⟩
    rw [← Except.ok.inj hids, List.mem_map] at hid
    obtain ⟨d, hd, hid⟩ := hid
    obtain ⟨hd, hdexpired⟩ := List.mem_filter.mp ((sortBy_perm _).mem_iff.mp hd)
    obtain rfl := h.distinct.eq_of_id hd he hid
    exact hdexpired
  · intro hexpired
    refine ⟨_, rfl, List.mem_map.mpr ⟨e, ?_, rfl⟩⟩
    exact (sortBy_perm _).mem_iff.mpr (List.mem_filter.mpr ⟨he, hexpired⟩)

end Moments

/-- After any calls on a new store a stored message with an attachment is charged or listed,
and not both, unless its attachment expired before time zero and that is in the past; then
it is neither. -/
theorem charged_xor_listed_iff (calls : List Store.Call) {m : Message} {s : DeliveryState}
    {a : Attachment} (hm : Store.Stored (Store.after calls) m s) (ha : m.attachment = some a)
    (now : Int64) :
    ¬ (Store.Charged (Store.after calls) a.owner now m.id ∧
        Store.Listed (Store.after calls) now m.id) ∧
      (Store.Charged (Store.after calls) a.owner now m.id ∨
          Store.Listed (Store.after calls) now m.id ↔ 0 ≤ a.expires ∨ now ≤ a.expires) := by
  have hafter := represents_after calls
  obtain ⟨e, he, rfl, rfl⟩ := (hafter.stored_iff m s).mp hm
  rw [hafter.charged_iff he ha, hafter.listed_iff he ha]
  exact charged_or_expired a.expires now

/-- A message with an attachment that expires at a time. -/
def withExpiry (expires : Int64) : Message :=
  (Message.new "x" 5 "t" "").withAttachment
    { name := "n", mimeType := "", size := 7, expires, url := "u", owner := "o" }

theorem stored_withExpiry (expires : Int64) :
    Store.Stored (Store.after [.add (withExpiry expires) 9]) (withExpiry expires) .published := by
  have hstorable : (withExpiry expires).IsStorable := by
    refine ⟨rfl, fun _ htag => absurd htag List.not_mem_nil, ?_⟩
    intro a ha
    cases ha
    exact (by decide : InInt64 (7 : UInt64).toNat)
  have hadd : Contents.add [] (withExpiry expires) 9 = .ok
      [{ rowId := 1, message := withExpiry expires, state := .published }] := by
    rw [Contents.add, Message.refusal?_eq_none.mpr hstorable]
    rfl
  rw [(represents_after _).stored_iff, Contents.run, Contents.after, hadd]
  exact ⟨_, List.mem_singleton_self _, rfl, rfl⟩

theorem charged_xor_listed_iff_moment :
    Store.Stored (Store.after [.add (withExpiry 10) 9]) (withExpiry 10) .published ∧
      ¬ (Store.Charged (Store.after [.add (withExpiry 10) 9]) "o" 11 "x" ∧
        Store.Listed (Store.after [.add (withExpiry 10) 9]) 11 "x") ∧
      (Store.Charged (Store.after [.add (withExpiry 10) 9]) "o" 11 "x" ∨
        Store.Listed (Store.after [.add (withExpiry 10) 9]) 11 "x") := by
  have hstored := stored_withExpiry 10
  have hiff := charged_xor_listed_iff _ hstored rfl 11
  exact ⟨hstored, hiff.1, hiff.2.mpr (.inl (by decide))⟩

/-- Nobody pays for the file and nobody is told to remove it. -/
theorem not_charged_not_listed_negative :
    Store.Stored (Store.after [.add (withExpiry (-5)) 9]) (withExpiry (-5)) .published ∧
      ¬ Store.Charged (Store.after [.add (withExpiry (-5)) 9]) "o" 0 "x" ∧
      ¬ Store.Listed (Store.after [.add (withExpiry (-5)) 9]) 0 "x" := by
  have hstored := stored_withExpiry (-5)
  have hafter := represents_after [.add (withExpiry (-5)) 9]
  obtain ⟨e, he, hmessage, -⟩ := (hafter.stored_iff _ _).mp hstored
  have ha : e.message.attachment = (withExpiry (-5)).attachment := by rw [hmessage]
  have hcharged := hafter.charged_iff he ha 0
  have hlisted := hafter.listed_iff he ha 0
  rw [hmessage] at hcharged hlisted
  exact ⟨hstored, fun h => absurd (hcharged.mp h) (by decide),
    fun h => absurd (hlisted.mp h) (by decide)⟩

end MessageCache
