/-
# What is listed for reclaiming, and how the list grows

A sweep asks from time to time for the messages whose attachment has expired, and removes
their files.  The list is exact, and it is the same list that goes on as time passes
(`Store.Reclaims`):

    members     the stored messages with an attachment that expires after zero and before now
    order       by the time to expire at, and by rows where these are equal
    growth      expired now  is the beginning of  expired now'     if now ≤ now'

so that whoever has dealt with a list has to look only at what comes after it in a later one.
A message without an attachment counts as one that never expires (`Entry.expires`), which
leaves two bounds on one number (`Entry.isExpired_iff`); the order goes by that number too,
and an upper bound on it cuts a sorted list in two.  Neither looks at the state of a message,
so that marking one changes no list.
-/
import MessageCache.Proofs.Store.Kept

namespace MessageCache

namespace Store

/-- What is listed for reclaiming at each moment, as messages, in a store that keeps these. -/
structure Reclaims (db : Database) (kept : List Kept) (expired : Int64 → List Message) :
    Prop where
  answered : ∀ now, attachmentsExpired db now = .ok ((expired now).map (·.id))
  mem : ∀ now m, m ∈ expired now ↔ (∃ s, (m, s) ∈ kept) ∧
    ∃ a, m.attachment = some a ∧ 0 < a.expires ∧ a.expires < now
  once : ∀ now, ((expired now).map (·.id)).Nodup
  ordered : ∀ now, (expired now).Pairwise fun m m' =>
    ∀ a ∈ m.attachment, ∀ a' ∈ m'.attachment, a.expires ≤ a'.expires
  /-- What comes later is added at the end. -/
  grows : ∀ now now', now ≤ now' → expired now <+: expired now'
  marked : ∀ id now, ((Call.expired now).run ((Call.mark id).run db).2).1 =
    ((Call.expired now).run db).1

end Store

/-! ## The time to expire at -/

namespace Entry

variable {e : Entry} {a : Attachment} {now : Int64}

theorem expires_of_attachment (ha : e.message.attachment = some a) : e.expires = a.expires := by
  rw [expires, ha]
  rfl

theorem isExpired_iff : e.isExpired now = true ↔ 0 < e.expires ∧ e.expires < now := by
  unfold isExpired expires
  cases e.message.attachment with
  | none => simp
  | some a => simp

/-- What has expired has an attachment. -/
theorem isExpired_iff_attachment : e.isExpired now = true ↔
    ∃ a, e.message.attachment = some a ∧ 0 < a.expires ∧ a.expires < now := by
  unfold isExpired
  rw [Option.any_eq_true]
  simp

end Entry

/-! ## What has expired -/

namespace Contents

variable {es : Contents} {now now' : Int64}

/-- The entries whose attachment has expired, the longest expired first. -/
def expired (es : Contents) (now : Int64) : Contents :=
  sortBy (fun a b => a.expires ≤ b.expires) (es.filter (Entry.isExpired now))

theorem expires_total (a b : Entry) : decide (a.expires ≤ b.expires) = true ∨
    decide (b.expires ≤ a.expires) = true := by
  simpa only [decide_eq_true_eq] using Int64.le_total a.expires b.expires

theorem expires_trans (a b c : Entry) (hab : decide (a.expires ≤ b.expires) = true)
    (hbc : decide (b.expires ≤ c.expires) = true) : decide (a.expires ≤ c.expires) = true := by
  rw [decide_eq_true_eq] at hab hbc ⊢
  exact Int64.le_trans hab hbc

theorem mem_expired {e : Entry} : e ∈ es.expired now ↔ e ∈ es ∧ e.isExpired now = true :=
  mem_sortBy.trans List.mem_filter

theorem expired_ordered (es : Contents) (now : Int64) :
    (es.expired now).Pairwise fun d e => d.expires ≤ e.expires :=
  (pairwise_sortBy expires_total expires_trans _).imp of_decide_eq_true

/-- Of what will have expired later, that which has expired now is what is below the bound. -/
theorem filter_expired (h : now ≤ now') :
    (es.expired now').filter (·.expires < now) = es.expired now := by
  have hchosen : ∀ e : Entry, (decide (e.expires < now) && e.isExpired now') =
      e.isExpired now := by
    intro e
    rw [Bool.eq_iff_iff, Bool.and_eq_true, decide_eq_true_eq, Entry.isExpired_iff,
      Entry.isExpired_iff]
    exact ⟨fun ⟨hlt, hpos, _⟩ => ⟨hpos, hlt⟩,
      fun ⟨hpos, hlt⟩ => ⟨hlt, hpos, Int64.lt_of_lt_of_le hlt h⟩⟩
  unfold expired
  rw [filter_sortBy expires_total expires_trans, List.filter_filter,
    List.filter_congr fun e _ => hchosen e]

theorem expired_prefix (h : now ≤ now') : es.expired now <+: es.expired now' := by
  have hsplit := filter_append_filter_not (p := fun e : Entry => decide (e.expires < now))
    (es.expired_ordered now') fun d e hle hlt => by
      rw [decide_eq_true_eq] at hlt ⊢
      exact Int64.lt_of_le_of_lt hle hlt
  rw [filter_expired h] at hsplit
  exact ⟨_, hsplit⟩

/-- Marking a message changes no time to expire at, and no order. -/
theorem expired_after_mark (id : String) :
    ((es.after (.mark id)).expired now).map (·.message) = (es.expired now).map (·.message) := by
  have hexpired : (fun e : Entry => (if e.hasId id then e.published else e).isExpired now) =
      Entry.isExpired now := by
    funext e
    split <;> rfl
  have hmessage : (fun e : Entry => (if e.hasId id then e.published else e).message) =
      (·.message) := by
    funext e
    split <;> rfl
  have hle (a b : Entry) : decide ((if a.hasId id then a.published else a).expires ≤
      (if b.hasId id then b.published else b).expires) = decide (a.expires ≤ b.expires) := by
    split <;> split <;> rfl
  unfold expired after
  rw [List.filter_map, sortBy_map hle, List.map_map]
  exact congr (congrArg List.map hmessage)
    (congrArg (sortBy _) (congrArg (List.filter · es) hexpired))

theorem Distinct.nodup_expired (h : es.Distinct) (now : Int64) :
    ((es.expired now).map (·.message.id)).Nodup := by
  have hperm : (es.expired now).Perm (es.filter (Entry.isExpired now)) := sortBy_perm _
  rw [(hperm.map _).nodup_iff]
  exact List.Nodup.sublist (List.filter_sublist.map _) h

end Contents

section Reclaiming

variable {db : Database} {es : Contents}

theorem Represents.run_expired (h : Represents db es) (now : Int64) :
    ((Store.Call.expired now).run db).1 =
      .ok (.ids (((es.expired now).map (·.message)).map (·.id))) := by
  obtain ⟨after, hrun, -⟩ := h.call (.expired now)
  rw [hrun, List.map_map]
  rfl

theorem Represents.reclaims (h : Represents db es) :
    Store.Reclaims db es.kept fun now => (es.expired now).map (·.message) := by
  constructor
  case answered =>
    intro now
    obtain ⟨t, ht, hcurrent, hrows⟩ := h.exists_table
    rw [attachmentsExpired_eq ht hcurrent hrows, List.map_map]
    rfl
  case mem =>
    intro now m
    simp only [List.mem_map, Contents.mem_expired, Entry.isExpired_iff_attachment,
      Contents.mem_kept]
    constructor
    · rintro ⟨e, ⟨he, hexpired⟩, rfl⟩
      exact ⟨⟨e.state, e, he, rfl, rfl⟩, hexpired⟩
    · rintro ⟨⟨_, e, he, rfl, rfl⟩, hexpired⟩
      exact ⟨e, ⟨he, hexpired⟩, rfl⟩
  case once =>
    intro now
    rw [List.map_map]
    exact h.distinct.nodup_expired now
  case ordered =>
    intro now
    refine List.pairwise_map.mpr ((es.expired_ordered now).imp ?_)
    intro d e hle a ha a' ha'
    rwa [Entry.expires_of_attachment ha, Entry.expires_of_attachment ha'] at hle
  case grows => exact fun now now' hle => (Contents.expired_prefix hle).map _
  case marked =>
    intro id now
    obtain ⟨after, hrun, hafter⟩ := h.call (.mark id)
    rw [hrun, hafter.run_expired, h.run_expired, Contents.expired_after_mark]

end Reclaiming

/-- Whatever was called before, what is listed for reclaiming are the stored messages whose
attachment has expired, in the order in which they do, and the list only gets longer. -/
theorem reclaims_of_calls (calls : List Store.Call) :
    ∃ kept, (∀ kept', Store.Keeps (Store.after calls) kept' ↔ kept' = kept) ∧
      ∃ expired, Store.Reclaims (Store.after calls) kept expired := by
  have hcontents := represents_after calls
  exact ⟨_, fun _ => hcontents.keeps.iff_eq, _, hcontents.reclaims⟩

end MessageCache
