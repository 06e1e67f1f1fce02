/-
# Topics and counts fit together

A topic is no more than a text that stored messages have in common.  What is asked about
topics is asked in three queries of their own, and the answers fit together
(`Store.CountsAgree`):

    count t     the number of stored messages of the topic, scheduled or published
    topics      the topics with a count above zero, each once, in the order of their bytes
    total       what the counts of these topics add up to

The list of topics comes about by sorting the topics of all messages and leaving out those
that equal the one before them (`Contents.runs`).  In what is sorted all that are equal stand
together, so that what is left ascends and nothing is there twice.
-/
import Mathlib.Algebra.BigOperators.Group.List.Lemmas
import MessageCache.Proofs.Store.Everything

namespace MessageCache

namespace Store

/-- How the topics of a store, the counts of its topics and its total go together. -/
structure CountsAgree (db : Database) (kept : List Kept) (topics : List Topic)
    (count : String → Nat) : Prop where
  counted : ∀ topic, messageCount db topic = .ok (count topic)
  /-- A count is that of the stored messages, in whatever state they are. -/
  stored : ∀ topic, count topic = kept.countP fun k => k.1.topic = topic
  listed : Store.topics db = .ok topics
  ascending : topics.Pairwise fun t t' => Utf8.bytes t.id < Utf8.bytes t'.id
  mem : ∀ t, t ∈ topics ↔ 0 < count t.id
  total : totalMessageCount db = .ok (topics.map fun t => count t.id).sum

end Store

/-! ## Texts without those that equal the one before them -/

namespace Contents

theorem mem_runs {s : String} {texts : List String} : s ∈ runs texts ↔ s ∈ texts := by
  induction texts with
  | nil => rfl
  | cons s' rest ih =>
      rw [List.mem_cons, ← ih, runs]
      cases runs rest with
      | nil => rw [List.mem_singleton, or_iff_left List.not_mem_nil]
      | cons d ds =>
          simp only
          split
          · rename_i hsame
            rw [hsame, List.mem_cons, or_self_left]
          · rw [List.mem_cons]

theorem bytes_lt_of_ne {s s' : String} (hle : Utf8.bytes s ≤ Utf8.bytes s') (hne : s ≠ s') :
    Utf8.bytes s < Utf8.bytes s' := by
  refine List.not_le.mp fun hge => hne ?_
  exact Utf8.bytes_inj.mp (List.le_antisymm hle hge)

/-- What is left of sorted texts ascends. -/
theorem runs_ascending {texts : List String}
    (h : texts.Pairwise fun s s' => Utf8.bytes s ≤ Utf8.bytes s') :
    (runs texts).Pairwise fun s s' => Utf8.bytes s < Utf8.bytes s' := by
  induction texts with
  | nil => exact .nil
  | cons s rest ih =>
      obtain ⟨hfirst, hrest⟩ := List.pairwise_cons.mp h
      have htail := ih hrest
      have hmem : ∀ d ∈ runs rest, Utf8.bytes s ≤ Utf8.bytes d :=
        fun d hd => hfirst d (mem_runs.mp hd)
      rw [runs]
      cases hruns : runs rest with
      | nil => exact List.pairwise_singleton _ _
      | cons d ds =>
          rw [hruns] at htail hmem
          simp only
          split
          · rename_i hsame
            rw [hsame]
            exact htail
          · rename_i hne
            have hlt := bytes_lt_of_ne (hmem d List.mem_cons_self) hne
            refine List.pairwise_cons.mpr ⟨?_, htail⟩
            intro d' hd'
            rcases List.mem_cons.mp hd' with rfl | hd'
            · exact hlt
            · exact List.lt_trans hlt ((List.pairwise_cons.mp htail).1 d' hd')

/-! ## Topics of contents -/

variable {es : Contents} {topic : String}

theorem topics_ascending (es : Contents) :
    es.topics.Pairwise fun s s' => Utf8.bytes s < Utf8.bytes s' := by
  refine runs_ascending (List.pairwise_map.mpr ?_)
  refine (pairwise_sortBy ?_ ?_ es).imp of_decide_eq_true
  · intro a b
    simpa only [decide_eq_true_eq] using List.le_total _ _
  · intro a b c hab hbc
    rw [decide_eq_true_eq] at hab hbc ⊢
    exact List.le_trans hab hbc

theorem mem_topics : topic ∈ es.topics ↔ topic ∈ es.map (·.message.topic) := by
  rw [topics, mem_runs]
  exact ((sortBy_perm es).map _).mem_iff

/-- The topics are those of the messages, each once. -/
theorem topics_perm_dedup (es : Contents) :
    es.topics.Perm (es.map (·.message.topic)).dedup := by
  have hnodup : es.topics.Nodup := by
    refine es.topics_ascending.imp fun hlt heq => ?_
    rw [heq] at hlt
    exact List.lt_irrefl _ hlt
  refine (List.perm_ext_iff_of_nodup hnodup (List.nodup_dedup _)).mpr fun topic => ?_
  rw [mem_topics, List.mem_dedup]

theorem countP_topic (es : Contents) (topic : String) :
    (es.kept.countP fun k => k.1.topic = topic) = (es.map (·.message.topic)).count topic := by
  rw [kept, List.countP_map, List.count, List.countP_map]
  rfl

end Contents

theorem Represents.countsAgree {db : Database} {es : Contents} (h : Represents db es) :
    Store.CountsAgree db es.kept (es.topics.map Topic.mk)
      fun topic => es.kept.countP fun k => k.1.topic = topic := by
  obtain ⟨t, ht, hcurrent, hrows⟩ := h.exists_table
  constructor
  case counted => exact h.messageCount
  case stored => exact fun _ => rfl
  case listed => exact topics_eq ht hcurrent hrows
  case ascending => exact List.pairwise_map.mpr es.topics_ascending
  case mem =>
    rintro ⟨topic⟩
    have hmk : (Topic.mk topic ∈ es.topics.map Topic.mk) ↔ topic ∈ es.topics := by simp
    rw [hmk, Contents.mem_topics, Contents.countP_topic, List.count_pos_iff]
  case total =>
    have hsum : ((es.topics.map Topic.mk).map fun t =>
        es.kept.countP fun k => k.1.topic = t.id).sum = es.length := by
      rw [List.map_map]
      calc (es.topics.map fun topic => es.kept.countP fun k => k.1.topic = topic).sum
          = (es.topics.map (es.map (·.message.topic)).count).sum := by
            simp only [Contents.countP_topic]
        _ = ((es.map (·.message.topic)).dedup.map (es.map (·.message.topic)).count).sum :=
            (es.topics_perm_dedup.map _).sum_eq
        _ = (es.map (·.message.topic)).length := List.sum_map_count_dedup_eq_length _
        _ = es.length := List.length_map _
    rw [hsum, Store.totalMessageCount,
      count_eq (p := fun _ => true) ht hcurrent hrows (by decide) fun _ _ _ => rfl,
      List.countP_true]
    rfl

/-- Whatever was called before, the counts of topics are those of the stored messages, the
topics ascend and are those with messages, and their counts add up to the total. -/
theorem countsAgree_of_calls (calls : List Store.Call) :
    ∃ kept, (∀ kept', Store.Keeps (Store.after calls) kept' ↔ kept' = kept) ∧
      ∃ topics count, Store.CountsAgree (Store.after calls) kept topics count := by
  have hcontents := represents_after calls
  exact ⟨_, fun _ => hcontents.keeps.iff_eq, _, _, hcontents.countsAgree⟩

end MessageCache
