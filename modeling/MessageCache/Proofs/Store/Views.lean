/-
# All views agree on the state of a message

Whether a message is published is asked in four ways.  Its state is what the flag reads
as, where anything but zero is true; polls and prunings want the flag to be one, and what is
due wants it to be zero.  Other numbers would make a message that is published by its state
and that no poll shows and no pruning removes.  No such flag comes about:

                     state       polls show it      due            pruning before c
    published        published   from its time on   never          iff time < c
    scheduled        scheduled   never              from its time  never

for every message of the store, which is there under its id alone (`Store.ViewsAgree`).  So
at every moment it is published, or due, or scheduled for later, and no two of them.

This holds after any calls on a new store, and on one that was upgraded from an older layout
with rows that can be read (`viewsAgree_of_calls`): a flag is only ever written as zero or
one, and a row that is older than the flag gets a one.
-/
import MessageCache.Proofs.Schema.Legacy
import MessageCache.Proofs.Store.Listing

namespace MessageCache

namespace Store

/-- What each view says of a message that is in this state. -/
structure Shown (db : Database) (m : Message) (s : DeliveryState) : Prop where
  state : messageState db m.id = .ok (some s)
  since : ∀ time, ∃ ms, messagesSince db m.topic (.at time) false = .ok ms ∧
    having m.id ms = if s = .published ∧ time ≤ m.time then [m] else []
  due : ∀ now, ∃ ms, messagesDue db now = .ok ms ∧
    having m.id ms = if s = .scheduled ∧ m.time ≤ now then [m] else []
  prune : ∀ c, ∃ n after left, prune db c = .ok (n, after) ∧
    messagesWhere after .always = .ok left ∧
    having m.id left = if s = .published ∧ m.time < c then [] else [m]

/-- Where a message is on its way. -/
inductive Stage where
  | published
  | due
  | later

/-- The message is there at a moment. -/
def IsAt (db : Database) (now : Int64) (m : Message) : Stage → Prop
  | .published => messageState db m.id = .ok (some .published)
  | .due => ∃ ms, messagesDue db now = .ok ms ∧ m ∈ ms
  | .later => messageState db m.id = .ok (some .scheduled) ∧ now < m.time

/-- These are the messages of all rows, and the views agree on each of them. -/
structure ViewsAgree (db : Database) (ms : List Message) : Prop where
  all : messagesWhere db .always = .ok ms
  distinct : (ms.map (·.id)).Nodup
  known : ∀ id, ∃ s, messageState db id = .ok s ∧ (s.isSome ↔ ∃ m ∈ ms, m.id = id)
  shown : ∀ m ∈ ms, ∃ s, Shown db m s
  ordered : ∀ now, ∃ due, messagesDue db now = .ok due ∧
    due.Pairwise fun m m' => m.time ≤ m'.time
  stage : ∀ m ∈ ms, ∀ now, ∃! stage, IsAt db now m stage

end Store

/-! ## Views of contents -/

/-- Where the message of an entry is on its way. -/
def Entry.stage (now : Int64) (e : Entry) : Store.Stage :=
  if e.state = .published then .published else if e.message.time ≤ now then .due else .later

section Views

variable {db : Database} {es : Contents} {e : Entry}

theorem Represents.messagesWhere_always (h : Represents db es) :
    Store.messagesWhere db .always = .ok (es.listing fun _ => true) := by
  obtain ⟨t, ht, hcurrent, hrows⟩ := h.exists_table
  exact messagesWhere_eq ht hcurrent hrows (by decide) fun _ _ _ => rfl

theorem Represents.messageState_of_mem (h : Represents db es) (he : e ∈ es) :
    Store.messageState db e.message.id = .ok (some e.state) := by
  rw [h.messageState, h.distinct.find?_eq he]
  rfl

theorem Represents.shown (h : Represents db es) (he : e ∈ es) :
    Store.Shown db e.message e.state := by
  constructor
  case state => exact h.messageState_of_mem he
  case since =>
    intro time
    refine ⟨_, h.messagesSince_at e.message.topic time false, ?_⟩
    rw [h.distinct.having_listing he]
    simp [Entry.isSince, and_comm]
  case due =>
    intro now
    refine ⟨_, h.messagesDue now, ?_⟩
    rw [h.distinct.having_listing he]
    simp [Entry.isDue, and_comm]
  case prune =>
    intro c
    obtain ⟨t, ht, hcurrent, hrows⟩ := h.exists_table
    obtain ⟨after, hprune, hafter⟩ := prune_eq ht hcurrent hrows h.distinct c
    refine ⟨_, after, _, hprune, hafter.messagesWhere_always, ?_⟩
    rw [Contents.after, Contents.listing_filter, h.distinct.having_listing he]
    by_cases hpruned : e.isPruned c = true
    · have hboth := Entry.isPruned_iff.mp hpruned
      simp [hpruned, hboth]
    · have hnot : ¬ (e.state = .published ∧ e.message.time < c) :=
        fun hboth => hpruned (Entry.isPruned_iff.mpr hboth.symm)
      simp [hpruned, hnot]

/-- A message that is due is scheduled, and its time has come. -/
theorem Represents.isAt_due (h : Represents db es) (he : e ∈ es) (now : Int64) :
    Store.IsAt db now e.message .due ↔ e.state = .scheduled ∧ e.message.time ≤ now := by
  have hmem : e.message ∈ es.listing (Entry.isDue now) ↔
      e.state = .scheduled ∧ e.message.time ≤ now := by
    rw [Contents.mem_listing]
    constructor
    · rintro ⟨d, hd, hdue, hmessage⟩
      obtain rfl := h.distinct.eq_of_id hd he (congrArg Message.id hmessage)
      exact (of_decide_eq_true hdue).symm
    · intro hdue
      exact ⟨e, he, decide_eq_true hdue.symm, rfl⟩
  rw [← hmem]
  show (∃ ms, Store.messagesDue db now = .ok ms ∧ e.message ∈ ms) ↔ _
  simp [h.messagesDue]

theorem Represents.isAt_iff (h : Represents db es) (he : e ∈ es) (now : Int64)
    (stage : Store.Stage) : Store.IsAt db now e.message stage ↔ stage = e.stage now := by
  have hstate := h.messageState_of_mem he
  have hdue := h.isAt_due he now
  rw [Entry.stage]
  cases hs : e.state with
  | published =>
      rw [hs] at hstate hdue
      cases stage with
      | due => simp [hdue]
      | published | later => simp [Store.IsAt, hstate]
  | scheduled =>
      rw [hs] at hstate hdue
      by_cases htime : e.message.time ≤ now
      · cases stage with
        | due => simp [hdue, htime]
        | published | later => simp [Store.IsAt, hstate, htime, Int64.not_lt]
      · cases stage with
        | due => simp [hdue, htime]
        | published | later => simp [Store.IsAt, hstate, htime, Int64.not_le.mp htime]

theorem Represents.viewsAgree (h : Represents db es) :
    Store.ViewsAgree db (es.listing fun _ => true) := by
  have hmem : ∀ m ∈ es.listing fun _ => true, ∃ e ∈ es, e.message = m := by
    intro m hm
    obtain ⟨e, he, -, hmessage⟩ := Contents.mem_listing.mp hm
    exact ⟨e, he, hmessage⟩
  constructor
  case all => exact h.messagesWhere_always
  case distinct => exact h.distinct.nodup_listing _
  case known =>
    intro id
    refine ⟨_, h.messageState id, ?_⟩
    simp [Contents.mem_listing, Entry.hasId_iff]
  case shown =>
    intro m hm
    obtain ⟨e, he, rfl⟩ := hmem m hm
    exact ⟨e.state, h.shown he⟩
  case ordered =>
    intro now
    exact ⟨_, h.messagesDue now, es.listing_ordered _⟩
  case stage =>
    intro m hm now
    obtain ⟨e, he, rfl⟩ := hmem m hm
    exact ⟨e.stage now, (h.isAt_iff he now _).mpr rfl, fun stage => (h.isAt_iff he now stage).mp⟩

end Views

/-- A database that a store can be made of: there is nothing in it, or it is a legible
store of an older layout. -/
inductive Store.Opens (db : Database) : Prop
  | fresh : db = .empty → Store.Opens db
  | legacy (v : Nat) (t : Table) : v < Layout.currentVersion → Legacy v db t → Store.Opens db

/-- After any calls on a new or an upgraded store the views agree. -/
theorem viewsAgree_of_calls {db : Database} (h : Store.Opens db) (calls : List Store.Call) :
    (ensureCurrent .granted db).result = .ok Layout.currentVersion ∧
      ∃ ms, Store.ViewsAgree (Store.run (ensureCurrent .granted db).database calls).2 ms := by
  cases h with
  | fresh h =>
      subst h
      exact ⟨rfl, _, (represents_after calls).viewsAgree⟩
  | legacy v t hv h =>
      obtain ⟨hresult, es, hrepresents⟩ := h.represents hv
      exact ⟨hresult, _, (hrepresents.run calls).2.viewsAgree⟩

/-- A scheduled message of version 4 that no release wrote: its tags are no stored form,
and what is left of an attachment has a negative size. -/
def oddCells : List (String × Cell) :=
  [("id", .ofString "a"), ("time", .integer 7), ("topic", .ofString "t"),
    ("message", .ofString "x"), ("title", .ofString ""), ("priority", .integer 4),
    ("tags", .ofString ",,"), ("published", .ofBool false), ("click", .ofString ""),
    ("attachment_name", .ofString ""), ("attachment_type", .ofString ""),
    ("attachment_size", .integer (-1)), ("attachment_expires", .integer 8),
    ("attachment_url", .ofString "u"), ("attachment_owner", .ofString "o"),
    ("encoding", .ofString "")]

def oddStore : List Statement :=
  .createTable messagesTable (Layout.released 4) ::
    .createIndex topicIndex messagesTable "topic" ::
    .insert messagesTable oddCells :: recordVersion 4

theorem legacy_oddStore : ∃ db t, transaction .granted oddStore .empty = .ok db ∧
    t.rows.length = 1 ∧ Legacy 4 db t := by
  refine ⟨_, _, rfl, rfl, ⟨rfl, ?_, rfl, ?_, ?_⟩, ?_, ?_, ?_⟩
  · unfold Table.HasLayout
    decide
  · intro u hu
    cases hu
    exact ⟨rfl, rfl⟩
  · intro hnone
    cases hnone
  · decide
  · intro r hr
    rw [List.mem_singleton.mp hr]
    constructor
    case integers =>
      intro name hname hinteger
      have hall : ∀ name ∈ Layout.releasedNames 4, name ∈ Layout.integerColumns →
          ∃ n ∈ [7, 4, 0, -1, 8], findCell name oddCells = .integer n := by decide
      obtain ⟨n, -, hn⟩ := hall name hname hinteger
      exact ⟨n, hn⟩
    case texts =>
      intro name hname htext
      have hall : ∀ name ∈ Layout.releasedNames 4, name ∉ Layout.integerColumns →
          ∃ s ∈ ["", "a", "t", "x", ",,", "u", "o"], findCell name oddCells = .ofString s := by
        decide
      obtain ⟨s, -, hs⟩ := hall name hname htext
      exact ⟨s, hs⟩
    case priority => exact fun _ => ⟨4, rfl⟩
    case published => exact fun _ => ⟨false, rfl⟩
    case size =>
      intro _ hattached
      exact absurd rfl (hattached "attachment_name" List.mem_cons_self).2
  · decide

theorem viewsAgree_of_calls_odd : ∃ db t ms, transaction .granted oddStore .empty = .ok db ∧
    t.rows.length = 1 ∧ Legacy 4 db t ∧ Store.ViewsAgree
      (Store.run (ensureCurrent .granted db).database [.prune 9, .mark "b"]).2 ms := by
  obtain ⟨db, t, hdb, hrows, hlegacy⟩ := legacy_oddStore
  obtain ⟨-, ms, hms⟩ :=
    viewsAgree_of_calls (.legacy 4 t (by decide) hlegacy) [.prune 9, .mark "b"]
  exact ⟨db, t, ms, hdb, hrows, hlegacy, hms⟩

end MessageCache
