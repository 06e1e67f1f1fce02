/-
# A stored message comes back as it was

A message that can be stored at all, whatever its texts and numbers are, is read back
unchanged for as long as it stays, by polls and by the question for what is due:

    add answers `stored`      iff   the message is storable and its id is free
    it was stored and stayed  ⟹    a poll of its topic has its id once, and that is it,
                                    and while it is scheduled what is due has it likewise

Nothing is asked of the calls before or after (`readsBack_of_stored`).  An id that stays
stored stays that of the same message: one that is pruned has no state right afterwards,
so a later message with the same id comes too late to be taken for it.
-/
import MessageCache.Proofs.Store.Listing

namespace MessageCache

/-! ## What can be stored -/

/-- Some store takes the message. -/
structure Message.IsStorable (m : Message) : Prop where
  event : m.event = .message
  tags : ∀ tag ∈ m.tags, Tags.Storable tag
  size : ∀ a ∈ m.attachment, InInt64 a.size.toNat

theorem Message.refusal?_eq_none {m : Message} : m.refusal? = none ↔ m.IsStorable := by
  unfold refusal?
  constructor
  · intro h
    split at h
    · cases h
    · rename_i hevent
      cases htags : Tags.encode m.tags with
      | error tag =>
          rw [htags] at h
          cases h
      | ok stored =>
          refine ⟨not_not.mp hevent, (Tags.encode_eq_ok.mp htags).1, ?_⟩
          rintro a ha
          rw [htags, Option.mem_def.mp ha] at h
          by_contra hsize
          simp only [hsize, if_false] at h
          cases h
  · intro h
    rw [if_neg (not_not_intro h.event), Tags.encode_eq_ok.mpr ⟨h.tags, rfl⟩]
    cases ha : m.attachment with
    | none => rfl
    | some a => exact if_pos (h.size a ha)

section Acceptance

variable {db : Database} {es : Contents} {m : Message} {now : Int64}

theorem Contents.answer_add_eq_stored : es.answer (.add m now) = .ok .stored ↔
    m.IsStorable ∧ ∀ e ∈ es, e.message.id ≠ m.id := by
  rw [answer, ← Message.refusal?_eq_none]
  cases hadd : es.add m now with
  | ok es' =>
      obtain ⟨hrefusal, hfree, -⟩ := add_eq_ok.mp hadd
      exact iff_of_true rfl ⟨hrefusal, hfree⟩
  | error e =>
      refine iff_of_false ?_ ?_
      · intro h
        cases h
      · rintro ⟨hrefusal, hfree⟩
        cases hadd.symm.trans (add_eq_ok.mpr ⟨hrefusal, hfree, rfl⟩)

/-- A message is taken iff it is storable and there is none with its id. -/
theorem Represents.add_eq_stored (h : Represents db es) :
    ((Store.Call.add m now).run db).1 = .ok .stored ↔
      m.IsStorable ∧ Store.messageState db m.id = .ok none := by
  obtain ⟨after, hrun, -⟩ := h.call (.add m now)
  have hstate : Store.messageState db m.id = .ok none ↔ ∀ e ∈ es, e.message.id ≠ m.id := by
    rw [h.messageState, Except.ok.injEq, Option.map_eq_none_iff, List.find?_eq_none]
    simp only [Entry.hasId_iff, ne_eq]
  rw [hrun, hstate]
  exact Contents.answer_add_eq_stored

end Acceptance

/-! ## What is read of it -/

namespace Store

/-- The message is read as it is, once: by each poll that reaches back to its time, and as
one that is due from its time on, while it is scheduled. -/
structure ReadsBack (db : Database) (m : Message) : Prop where
  since : ∀ time, time ≤ m.time →
    ∃ ms, messagesSince db m.topic (.at time) true = .ok ms ∧ having m.id ms = [m]
  due : messageState db m.id = .ok (some .scheduled) → ∀ now, m.time ≤ now →
    ∃ ms, messagesDue db now = .ok ms ∧ having m.id ms = [m]

/-- At no time during the calls, before and after them included, is there no message with
this id. -/
def Stays (db : Database) (id : String) (calls : List Call) : Prop :=
  ∀ first, first <+: calls → ∃ s, messageState (run db first).2 id = .ok (some s)

end Store

section Reading

variable {db : Database} {es : Contents} {m : Message} {s : DeliveryState}

theorem Represents.readsBack (h : Represents db es) (hm : Store.Stored db m s) :
    Store.ReadsBack db m := by
  obtain ⟨e, he, rfl, rfl⟩ := (h.stored_iff m s).mp hm
  constructor
  case since =>
    intro time htime
    refine ⟨_, h.messagesSince_at e.message.topic time true, ?_⟩
    rw [h.distinct.having_listing he]
    exact if_pos (by simp [Entry.isSince, htime])
  case due =>
    intro hstate now hnow
    refine ⟨_, h.messagesDue now, ?_⟩
    rw [h.messageState, h.distinct.find?_eq he, Option.map_some, Except.ok.injEq,
      Option.some.injEq] at hstate
    rw [h.distinct.having_listing he]
    exact if_pos (by simp [Entry.isDue, hnow, hstate])

/-- Right after a message was pruned there is none with its id. -/
theorem Represents.messageState_of_pruned (h : Represents db es) {c : Int64}
    (hm : Store.Stored db m s) (hgone : ¬ Store.Stored ((Store.Call.prune c).run db).2 m s) :
    ∀ s', Store.messageState ((Store.Call.prune c).run db).2 m.id ≠ .ok (some s') := by
  intro s' hs'
  obtain ⟨after, hrun, hafter⟩ := h.call (.prune c)
  have hknown := hafter.lifeCycle.known m.id s'
  rw [hrun] at hs' hgone
  obtain ⟨m', hid, hm'⟩ := hknown hs'
  have hold : Store.Stored db m' s' := by
    rw [hafter.stored_iff, Contents.has_prune] at hm'
    exact (h.stored_iff m' s').mpr hm'.1
  obtain ⟨rfl, rfl⟩ := h.lifeCycle.unique m' s' m s hold hm hid
  exact hgone hm'

/-- A message whose id stays is still there. -/
theorem Represents.stored_of_stays (h : Represents db es) (hm : Store.Stored db m s)
    {calls : List Store.Call} (hstays : Store.Stays db m.id calls) :
    ∃ s', Store.Stored (Store.run db calls).2 m s' := by
  rcases h.later calls hm with ⟨s', hs', -⟩ | ⟨first, c, rest, rfl, -, hbefore, -, hgone⟩
  · exact ⟨s', hs'⟩
  · have hprefix : first ++ [.prune c] <+: first ++ .prune c :: rest :=
      ⟨rest, by rw [List.append_assoc, List.singleton_append]⟩
    obtain ⟨s', hs'⟩ := hstays _ hprefix
    rw [run_append] at hs' hgone
    exact absurd hs'
      ((h.run first).2.messageState_of_pruned hbefore (hgone .published) s')

end Reading

/-- A message that is taken after any calls is read unchanged after any further ones, for
as long as it stays. -/
theorem readsBack_of_stored (calls : List Store.Call) (m : Message) (clock : Int64) :
    (((Store.Call.add m clock).run (Store.after calls)).1 = .ok .stored ↔
        m.IsStorable ∧ Store.messageState (Store.after calls) m.id = .ok none) ∧
      (((Store.Call.add m clock).run (Store.after calls)).1 = .ok .stored →
        ∀ later, Store.Stays (Store.after (calls ++ [.add m clock])) m.id later →
          Store.ReadsBack (Store.after (calls ++ .add m clock :: later)) m) := by
  have hbefore := represents_after calls
  refine ⟨hbefore.add_eq_stored, ?_⟩
  intro hstored later hstays
  have hadded := represents_after (calls ++ [.add m clock])
  obtain ⟨s, hs, -⟩ := (hbefore.transition (.add m clock)).added m clock rfl hstored
  have hs : Store.Stored (Store.after (calls ++ [.add m clock])) m s := by
    rw [Store.after_append]
    exact hs
  obtain ⟨s', hs'⟩ := hadded.stored_of_stays hs hstays
  have hsplit : calls ++ .add m clock :: later = calls ++ [.add m clock] ++ later := by
    rw [List.append_assoc, List.singleton_append]
  rw [hsplit, Store.after_append]
  exact (hadded.run later).2.readsBack hs'

/-- Scheduled, with an attachment of the greatest size that has no name, no url and an
odd time to expire at. -/
def unusual : Message :=
  { id := "a", time := 50, event := .message, topic := "", body := "x, y", title := ""
    priority := 255, tags := ["u", "v w"], click := "", encoding := ""
    attachment := some
      { name := "", mimeType := "", size := 0x7FFFFFFFFFFFFFFF, expires := -1, url := ""
        owner := "o" } }

theorem readsBack_of_stored_unusual :
    ((Store.Call.add unusual 9).run (Store.after [.add (Message.new "b" 3 "t" "") 9])).1 =
        .ok .stored ∧
      Store.Stays (Store.after [.add (Message.new "b" 3 "t" "") 9, .add unusual 9]) "a"
        [.prune 40, .prune 60] ∧
      Store.ReadsBack (Store.after
        [.add (Message.new "b" 3 "t" "") 9, .add unusual 9, .prune 40, .prune 60]) unusual ∧
      Store.messageState (Store.after
        [.add (Message.new "b" 3 "t" "") 9, .add unusual 9, .prune 40, .prune 60]) "a" =
          .ok (some .scheduled) := by
  have hroundTrip := readsBack_of_stored [.add (Message.new "b" 3 "t" "") 9] unusual 9
  have hstored : ((Store.Call.add unusual 9).run
      (Store.after [.add (Message.new "b" 3 "t" "") 9])).1 = .ok .stored := by
    refine hroundTrip.1.mpr ⟨⟨rfl, by decide, ?_⟩, ?_⟩
    · intro a ha
      cases ha
      decide
    · rw [(represents_after _).messageState]
      rfl
  have hstays : Store.Stays (Store.after [.add (Message.new "b" 3 "t" "") 9, .add unusual 9]) "a"
      [.prune 40, .prune 60] := by
    intro first hfirst
    refine ⟨.scheduled, ?_⟩
    rw [← Store.after_append, (represents_after _).messageState]
    simp only [List.prefix_cons_iff, List.prefix_nil] at hfirst
    rcases hfirst with rfl | ⟨_, rfl, rfl | ⟨_, rfl, rfl⟩⟩ <;> rfl
  refine ⟨hstored, hstays, hroundTrip.2 hstored _ hstays, ?_⟩
  rw [(represents_after _).messageState]
  rfl

end MessageCache
