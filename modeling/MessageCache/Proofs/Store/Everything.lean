/-
# What a poll for everything lists

A poll for everything is a poll from the time zero on, which is as far back as it goes.  A
message may have any time, a negative one too, and is counted whatever its time is:

    listed      the messages of the topic from time zero on, each of them once
    counted     these and the messages of the topic from before

(`Store.ListsFromZero`).  So as many messages as are counted are listed, and all that are
stored, iff no message of the topic is from before time zero.
-/
import MessageCache.Proofs.Store.Polls

namespace MessageCache

namespace Store

/-- A poll for everything lists what is kept of the topic from time zero on. -/
structure ListsFromZero (db : Database) (kept : List Kept) (topic : String) (ms : List Message) :
    Prop where
  answered : messagesSince db topic .all true = .ok ms
  once : ∀ k ∈ kept, k.1.topic = topic → 0 ≤ k.1.time → ms.count k.1 = 1
  /-- It lists nothing else. -/
  only : ∀ m ∈ ms, ∃ s, (m, s) ∈ kept ∧ m.topic = topic ∧ 0 ≤ m.time
  length : ms.length = kept.countP fun k => k.1.topic = topic ∧ 0 ≤ k.1.time
  /-- What is from before is counted too. -/
  counted : messageCount db topic =
    .ok (ms.length + kept.countP fun k => k.1.topic = topic ∧ k.1.time < 0)

/-- A poll for everything lists each message that is kept of the topic once, and there are
as many in it as are counted. -/
def ListsAll (db : Database) (kept : List Kept) (topic : String) : Prop :=
  ∃ ms, messagesSince db topic .all true = .ok ms ∧
    (∀ k ∈ kept, k.1.topic = topic → ms.count k.1 = 1) ∧ messageCount db topic = .ok ms.length

end Store

section Everything

variable {db : Database} {es : Contents} {topic : String}

theorem Represents.messageCount (h : Represents db es) (topic : String) :
    Store.messageCount db topic = .ok (es.kept.countP fun k => k.1.topic = topic) := by
  obtain ⟨after, hrun, -⟩ := h.call (.count topic)
  have hanswer : (Store.messageCount db topic).map Store.Reply.count =
      .ok (.count (es.countP fun e => e.message.topic = topic)) := congrArg Prod.fst hrun
  rw [Contents.kept, List.countP_map]
  obtain ⟨n, hn, hcount⟩ := map_eq_ok.mp hanswer
  rw [hn]
  exact congrArg Except.ok (Store.Reply.count.inj hcount)

namespace Contents

/-- The order of a listing apart, it has the messages that are chosen. -/
theorem listing_isSince_perm (es : Contents) (topic : String) (time : Int64) :
    (es.listing (Entry.isSince topic time true)).Perm
      ((es.kept.filter fun k => k.1.topic = topic ∧ time ≤ k.1.time).map (·.1)) := by
  have hchosen : (es.kept.filter fun k => k.1.topic = topic ∧ time ≤ k.1.time).map (·.1) =
      (es.filter (Entry.isSince topic time true)).map (·.message) := by
    rw [kept, List.filter_map, List.map_map]
    refine congrArg (List.map _) (List.filter_congr fun e _ => ?_)
    simp [Entry.isSince]
  rw [hchosen]
  exact (sortBy_perm _).map _

/-- A message is in a listing at most once. -/
theorem Distinct.count_listing (h : es.Distinct) (p : Entry → Bool) {m : Message}
    (hm : m ∈ es.listing p) : (es.listing p).count m = 1 :=
  List.count_eq_one_of_mem (h.nodup_listing p).of_map hm

end Contents

/-- What is kept of a topic is from some time on or from before. -/
theorem countP_topic_split (kept : List Kept) (topic : String) (time : Int64) :
    kept.countP (fun k => k.1.topic = topic) =
      kept.countP (fun k => k.1.topic = topic ∧ time ≤ k.1.time) +
        kept.countP (fun k => k.1.topic = topic ∧ k.1.time < time) := by
  rw [List.countP_eq_length_filter,
    List.length_eq_countP_add_countP (fun k : Kept => decide (time ≤ k.1.time)),
    List.countP_filter, List.countP_filter]
  congr 1 <;> exact List.countP_congr fun k _ => by simp [and_comm]

theorem Represents.listsFromZero (h : Represents db es) (topic : String) :
    Store.ListsFromZero db es.kept topic (es.listing (Entry.isSince topic 0 true)) := by
  have hpolls := h.polls topic
  have hlength : (es.listing (Entry.isSince topic 0 true)).length =
      es.kept.countP fun k => k.1.topic = topic ∧ 0 ≤ k.1.time := by
    rw [(es.listing_isSince_perm topic 0).length_eq, List.length_map,
      ← List.countP_eq_length_filter]
  constructor
  case answered => exact hpolls.all true
  case once =>
    rintro ⟨m, s⟩ hk htopic htime
    exact h.distinct.count_listing _ ((hpolls.mem 0 true m).mpr ⟨s, hk, htopic, htime, .inr rfl⟩)
  case only =>
    intro m hm
    obtain ⟨s, hk, htopic, htime, -⟩ := (hpolls.mem 0 true m).mp hm
    exact ⟨s, hk, htopic, htime⟩
  case length => exact hlength
  case counted => rw [h.messageCount, hlength, countP_topic_split es.kept topic 0]

/-- What is listed from time zero on is everything iff nothing is from before. -/
theorem Store.ListsFromZero.listsAll_iff {kept : List Kept} {ms : List Message}
    (h : Store.ListsFromZero db kept topic ms) :
    Store.ListsAll db kept topic ↔ ∀ k ∈ kept, k.1.topic = topic → 0 ≤ k.1.time := by
  constructor
  · rintro ⟨ms', hms', hall, -⟩ k hk htopic
    obtain rfl := Except.ok.inj (h.answered.symm.trans hms')
    have hmem : k.1 ∈ ms := List.one_le_count_iff.mp (Nat.le_of_eq (hall k hk htopic).symm)
    obtain ⟨-, -, -, htime⟩ := h.only _ hmem
    exact htime
  · intro hall
    have hnone : kept.countP (fun k => k.1.topic = topic ∧ k.1.time < 0) = 0 := by
      refine List.countP_eq_zero.mpr fun k hk hearly => ?_
      obtain ⟨htopic, htime⟩ := of_decide_eq_true hearly
      exact Int64.not_lt.mpr (hall k hk htopic) htime
    refine ⟨ms, h.answered, fun k hk htopic => h.once k hk htopic (hall k hk htopic), ?_⟩
    rw [h.counted, hnone, Nat.add_zero]

end Everything

/-- Whatever was called before, a poll for everything lists the messages of a topic from
time zero on; that is everything iff none is from before. -/
theorem listsFromZero_of_calls (calls : List Store.Call) :
    ∃ kept, (∀ kept', Store.Keeps (Store.after calls) kept' ↔ kept' = kept) ∧ ∀ topic,
      (∃ ms, Store.ListsFromZero (Store.after calls) kept topic ms) ∧
      (Store.ListsAll (Store.after calls) kept topic ↔
        ∀ k ∈ kept, k.1.topic = topic → 0 ≤ k.1.time) := by
  have hcontents := represents_after calls
  refine ⟨_, fun _ => hcontents.keeps.iff_eq, ?_⟩
  intro topic
  have hlists := hcontents.listsFromZero topic
  exact ⟨⟨_, hlists⟩, hlists.listsAll_iff⟩

/-- A message from before time zero. -/
def early : Message := Message.new "a" (-5) "t" "hello"

/-- It is stored and counted, and a poll for everything does not list it. -/
theorem not_listsAll_early :
    Store.Keeps (Store.after [.add early 9]) [(early, .published)] ∧
      Store.messagesSince (Store.after [.add early 9]) "t" .all true = .ok [] ∧
      Store.messageCount (Store.after [.add early 9]) "t" = .ok 1 ∧
      ¬ Store.ListsAll (Store.after [.add early 9]) [(early, .published)] "t" := by
  have hcontents := represents_after [.add early 9]
  have hkept : (Contents.run [] [.add early 9]).2.kept = [(early, .published)] := by decide
  have hlists := hcontents.listsFromZero "t"
  rw [hkept] at hlists
  refine ⟨hkept ▸ hcontents.keeps, hlists.answered, hlists.counted, ?_⟩
  intro hall
  exact absurd (hlists.listsAll_iff.mp hall _ List.mem_cons_self rfl) (by decide)

end MessageCache
