/-
# Polls fit together

A poll of a topic from some time on lists what is kept of that topic, each message once, in
the order of their times.  A later poll is the end of an earlier one:

    poll s  =  (those of poll s from before s')  ++  poll s'         if s ≤ s'

(`Store.Polls.split`), so that whoever asks for a while and goes on from any time in it
misses nothing, gets nothing twice and sees the same order, among messages of equal times
too.  Without those that are scheduled a poll is the rest of it (`Store.Polls.published`).
-/
import MessageCache.Proofs.Store.Kept

namespace MessageCache

namespace Store

/-- What the polls of a topic list, by the time that they go back to and by whether they ask
for scheduled messages too. -/
structure Polls (db : Database) (kept : List Kept) (topic : String)
    (poll : Int64 → Bool → List Message) : Prop where
  answered : ∀ time scheduled,
    messagesSince db topic (.at time) scheduled = .ok (poll time scheduled)
  /-- Everything is what there is from the time zero on. -/
  all : ∀ scheduled, messagesSince db topic .all scheduled = .ok (poll 0 scheduled)
  nothing : ∀ scheduled, messagesSince db topic .noMessages scheduled = .ok []
  mem : ∀ time scheduled m, m ∈ poll time scheduled ↔
    ∃ s, (m, s) ∈ kept ∧ m.topic = topic ∧ time ≤ m.time ∧ (s = .published ∨ scheduled = true)
  once : ∀ time scheduled, ((poll time scheduled).map (·.id)).Nodup
  ordered : ∀ time scheduled, (poll time scheduled).Pairwise fun m m' => m.time ≤ m'.time
  published : ∀ time, (poll time false).Sublist (poll time true)
  /-- A later poll lists, in the same order, what an earlier one lists from then on. -/
  later : ∀ time time' scheduled, time ≤ time' →
    poll time' scheduled = (poll time scheduled).filter (time' ≤ ·.time)
  split : ∀ time time' scheduled, time ≤ time' →
    poll time scheduled = (poll time scheduled).filter (·.time < time') ++ poll time' scheduled

end Store

section Polls

variable {es : Contents} {topic : String} {time time' : Int64} {scheduled : Bool}

theorem Entry.isSince_iff {e : Entry} : e.isSince topic time scheduled = true ↔
    e.message.topic = topic ∧ time ≤ e.message.time ∧ (scheduled = true ∨ e.state = .published) :=
  decide_eq_true_iff

namespace Contents

theorem mem_listing_isSince {m : Message} :
    m ∈ es.listing (Entry.isSince topic time scheduled) ↔
      ∃ s, (m, s) ∈ es.kept ∧ m.topic = topic ∧ time ≤ m.time ∧
        (s = .published ∨ scheduled = true) := by
  simp only [mem_listing, Entry.isSince_iff, mem_kept]
  constructor
  · rintro ⟨e, he, ⟨htopic, htime, hstate⟩, rfl⟩
    exact ⟨e.state, ⟨e, he, rfl, rfl⟩, htopic, htime, hstate.symm⟩
  · rintro ⟨_, ⟨e, he, rfl, rfl⟩, htopic, htime, hstate⟩
    exact ⟨e, he, ⟨htopic, htime, hstate.symm⟩, rfl⟩

/-- What is published is chosen from what is scheduled or published. -/
theorem listing_published : (es.listing (Entry.isSince topic time false)).Sublist
    (es.listing (Entry.isSince topic time true)) := by
  have hchosen : ∀ e : Entry, e.isSince topic time false =
      (decide (e.state = .published) && e.isSince topic time true) := by
    intro e
    rw [Bool.eq_iff_iff, Bool.and_eq_true, decide_eq_true_eq, Entry.isSince_iff, Entry.isSince_iff]
    simp only [Bool.false_eq_true, false_or, true_or, and_true]
    exact ⟨fun ⟨htopic, htime, hstate⟩ => ⟨hstate, htopic, htime⟩,
      fun ⟨hstate, htopic, htime⟩ => ⟨htopic, htime, hstate⟩⟩
  unfold listing
  rw [List.filter_congr fun e _ => hchosen e, ← filter_byTime]
  exact List.filter_sublist.map _

/-- A condition that reaches less far back is met by what is met by the other and is late
enough. -/
theorem listing_later (htime : time ≤ time') :
    es.listing (Entry.isSince topic time' scheduled) =
      (es.listing (Entry.isSince topic time scheduled)).filter (time' ≤ ·.time) := by
  have hchosen : ∀ e : Entry, e.isSince topic time' scheduled =
      (decide (time' ≤ e.message.time) && e.isSince topic time scheduled) := by
    intro e
    rw [Bool.eq_iff_iff, Bool.and_eq_true, decide_eq_true_eq, Entry.isSince_iff, Entry.isSince_iff]
    exact ⟨fun ⟨htopic, hlate, hstate⟩ => ⟨hlate, htopic, Int64.le_trans htime hlate, hstate⟩,
      fun ⟨hlate, htopic, _, hstate⟩ => ⟨htopic, hlate, hstate⟩⟩
  rw [filter_listing]
  exact congrArg es.listing (funext hchosen)

/-- Around a time a listing falls into what is earlier and what is not. -/
theorem listing_split (es : Contents) (p : Entry → Bool) (time : Int64) :
    (es.listing p).filter (·.time < time) ++ (es.listing p).filter (time ≤ ·.time) =
      es.listing p := by
  have hnot : (fun m : Message => decide (time ≤ m.time)) = fun m => !decide (m.time < time) := by
    funext m
    rw [← decide_not, decide_eq_decide]
    exact Int64.not_lt.symm
  rw [hnot]
  refine filter_append_filter_not (listing_ordered es p) ?_
  intro m m' hle hlt
  rw [decide_eq_true_eq] at hlt ⊢
  exact Int64.lt_of_le_of_lt hle hlt

end Contents

theorem Represents.polls {db : Database} (h : Represents db es) (topic : String) :
    Store.Polls db es.kept topic
      fun time scheduled => es.listing (Entry.isSince topic time scheduled) := by
  constructor
  case answered => exact fun time scheduled => h.messagesSince_at topic time scheduled
  case all => exact fun scheduled => h.messagesSince_at topic 0 scheduled
  case nothing => exact fun _ => rfl
  case mem => exact fun _ _ _ => Contents.mem_listing_isSince
  case once => exact fun _ _ => h.distinct.nodup_listing _
  case ordered => exact fun _ _ => es.listing_ordered _
  case published => exact fun _ => Contents.listing_published
  case later => exact fun _ _ _ htime => Contents.listing_later htime
  case split =>
    intro time time' scheduled htime
    show es.listing _ = _ ++ es.listing _
    rw [Contents.listing_later htime]
    exact (es.listing_split _ time').symm

end Polls

/-- Whatever was called before, the polls of each topic list what is kept of it, and each
is the end of those that go further back. -/
theorem polls_of_calls (calls : List Store.Call) :
    ∃ kept, (∀ kept', Store.Keeps (Store.after calls) kept' ↔ kept' = kept) ∧
      (kept.map (·.1.id)).Nodup ∧
      ∀ topic, ∃ poll, Store.Polls (Store.after calls) kept topic poll := by
  have hcontents := represents_after calls
  refine ⟨_, fun _ => hcontents.keeps.iff_eq, ?_, fun topic => ⟨_, hcontents.polls topic⟩⟩
  rw [Contents.kept, List.map_map]
  exact hcontents.distinct

end MessageCache
