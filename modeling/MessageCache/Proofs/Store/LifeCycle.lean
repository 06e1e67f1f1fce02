/-
# The life of a stored message

`Stored db m s` is said in terms of what a caller can ask for: a poll of the message's
topic from its time on gives the message, and its state is `s`.  In a database that
represents contents it means that there is an entry with just that message and state
(`Represents.stored_iff`), so what a call does to stored messages can be read off
`Contents.after`:

    add         a new message, which is published iff its time has come; the rest stays
    mark id     the message with that id becomes published; the rest stays
    prune c     published messages from before c go; the rest stays
    otherwise   everything stays

`LifeCycle` collects what follows for single calls and for all later calls, and
`lifeCycle_of_calls` says that it holds after any calls on a new store.
-/
import MessageCache.Proofs.Store.Simulation

namespace MessageCache

/-! ## Entries by message -/

namespace Contents

/-- The message is among the contents in this state. -/
def Has (es : Contents) (m : Message) (s : DeliveryState) : Prop :=
  ∃ e ∈ es, e.message = m ∧ e.state = s

variable {es : Contents} {m : Message} {s : DeliveryState}

theorem Distinct.eq_of_id (h : es.Distinct) {d e : Entry} (hd : d ∈ es) (he : e ∈ es)
    (hid : d.message.id = e.message.id) : d = e := by
  unfold Distinct at h
  exact List.inj_on_of_nodup_map h hd he hid

theorem Distinct.find?_eq (h : es.Distinct) {e : Entry} (he : e ∈ es) :
    es.find? (Entry.hasId e.message.id) = some e := by
  cases hfind : es.find? (Entry.hasId e.message.id) with
  | none => exact absurd (Entry.hasId_iff.mpr rfl) (List.find?_eq_none.mp hfind e he)
  | some d =>
      have hhas : d.hasId e.message.id = true := List.find?_some hfind
      have hid : d.message.id = e.message.id := Entry.hasId_iff.mp hhas
      rw [h.eq_of_id (List.mem_of_find?_eq_some hfind) he hid]

/-- A message is there in one state. -/
theorem Distinct.has_unique (h : es.Distinct) {m' : Message} {s' : DeliveryState}
    (hm : es.Has m s) (hm' : es.Has m' s') (hid : m.id = m'.id) : m = m' ∧ s = s' := by
  obtain ⟨d, hd, rfl, rfl⟩ := hm
  obtain ⟨e, he, rfl, rfl⟩ := hm'
  rw [h.eq_of_id hd he hid]
  exact ⟨rfl, rfl⟩

/-- What is there after a message was added. -/
theorem has_add {es' : Contents} {m' : Message} {now : Int64} (h : es.add m' now = .ok es') :
    es'.Has m s ↔ (m' = m ∧ .atInsert m'.time now = s) ∨ es.Has m s := by
  unfold Has
  have hmem : ∀ e, e ∈ es' ↔ e = es.newEntry m' now ∨ e ∈ es := by
    intro e
    rw [(perm_of_add h).mem_iff, List.mem_cons]
  simp only [hmem, or_and_right, exists_or, exists_eq_left]
  rfl

/-- What is there after a message was marked. -/
theorem has_mark {id : String} :
    (es.after (.mark id)).Has m s ↔
      if m.id = id then s = .published ∧ ∃ s', es.Has m s' else es.Has m s := by
  constructor
  · rintro ⟨e, he, rfl, rfl⟩
    obtain ⟨d, hd, rfl⟩ := List.mem_map.mp he
    by_cases hid : d.message.id = id
    · simp only [Entry.hasId_iff.mpr hid, if_true]
      rw [if_pos (show d.published.message.id = id from hid)]
      exact ⟨rfl, d.state, d, hd, rfl, rfl⟩
    · have hhas : ¬ d.hasId id = true := fun h => hid (Entry.hasId_iff.mp h)
      rw [if_neg hhas, if_neg hid]
      exact ⟨d, hd, rfl, rfl⟩
  · split
    · rename_i hid
      rintro ⟨rfl, s', d, hd, rfl, rfl⟩
      exact ⟨d.published, List.mem_map.mpr ⟨d, hd, if_pos (Entry.hasId_iff.mpr hid)⟩, rfl, rfl⟩
    · rename_i hid
      rintro ⟨d, hd, rfl, rfl⟩
      have hhas : ¬ d.hasId id = true := fun h => hid (Entry.hasId_iff.mp h)
      exact ⟨d, List.mem_map.mpr ⟨d, hd, if_neg hhas⟩, rfl, rfl⟩

/-- What is there after a pruning. -/
theorem has_prune {olderThan : Int64} :
    (es.after (.prune olderThan)).Has m s ↔
      es.Has m s ∧ ¬ (m.time < olderThan ∧ s = .published) := by
  have hpruned : ∀ e : Entry, (!e.isPruned olderThan) = true ↔
      ¬ (e.message.time < olderThan ∧ e.state = .published) := by
    intro e
    rw [Bool.not_eq_true', ← Bool.not_eq_true, Entry.isPruned_iff]
  constructor
  · rintro ⟨e, he, rfl, rfl⟩
    obtain ⟨hmem, hkept⟩ := List.mem_filter.mp he
    exact ⟨⟨e, hmem, rfl, rfl⟩, (hpruned e).mp hkept⟩
  · rintro ⟨⟨e, he, rfl, rfl⟩, hkept⟩
    exact ⟨e, List.mem_filter.mpr ⟨he, (hpruned e).mpr hkept⟩, rfl, rfl⟩

end Contents

/-! ## Stored messages -/

namespace Store

/-- A poll from the message's time on gives the message, and it is in this state. -/
def Stored (db : Database) (m : Message) (s : DeliveryState) : Prop :=
  (∃ ms, messagesSince db m.topic (.at m.time) true = .ok ms ∧ m ∈ ms) ∧
    messageState db m.id = .ok (some s)

end Store

section Stored

variable {db : Database} {es : Contents}

/-- To be stored is to be among the contents. -/
theorem Represents.stored_iff (h : Represents db es) (m : Message) (s : DeliveryState) :
    Store.Stored db m s ↔ es.Has m s := by
  obtain ⟨t, ht, hcurrent, hrows⟩ := h.exists_table
  have hstate := messageState_eq ht hcurrent hrows m.id
  have hsince := messagesSince_eq ht hcurrent hrows m.topic (.at m.time) true
  have hmem : m ∈ es.listing (Entry.isSince m.topic m.time true) ↔
      ∃ e ∈ es, e.message = m := by
    rw [Contents.mem_listing]
    constructor
    · rintro ⟨e, he, -, rfl⟩
      exact ⟨e, he, rfl⟩
    · rintro ⟨e, he, rfl⟩
      exact ⟨e, he, by simp [Entry.isSince], rfl⟩
  constructor
  · rintro ⟨⟨ms, hms, hm⟩, hs⟩
    rw [hsince] at hms
    cases hms
    obtain ⟨e, he, rfl⟩ := hmem.mp hm
    rw [hstate, h.distinct.find?_eq he] at hs
    cases hs
    exact ⟨e, he, rfl, rfl⟩
  · rintro ⟨e, he, rfl, rfl⟩
    refine ⟨⟨_, hsince, hmem.mpr ⟨e, he, rfl⟩⟩, ?_⟩
    rw [hstate, h.distinct.find?_eq he]
    rfl

end Stored

/-! ## One call -/

namespace Store

/-- What a call does to stored messages. -/
structure Transition (db : Database) (call : Call) (answer : Except StoreError Reply)
    (after : Database) : Prop where
  /-- A stored message stays in its state, becomes published when it is marked, or goes when
  it is pruned after it was published. -/
  kept : ∀ m s, Stored db m s → Stored after m s ∨
    (s = .scheduled ∧ call = .mark m.id ∧ Stored after m .published) ∨
    (s = .published ∧ ∃ c, call = .prune c ∧ m.time < c ∧ ∀ s', ¬ Stored after m s')
  /-- A message that is stored was stored before, perhaps as a scheduled one that is marked
  now, or is the one that the call adds. -/
  origin : ∀ m s, Stored after m s → Stored db m s ∨
    (s = .published ∧ call = .mark m.id ∧ Stored db m .scheduled) ∨
    ∃ now, call = .add m now ∧ answer = .ok .stored ∧ (s = .published ↔ m.time ≤ now) ∧
      ∀ m' s', Stored db m' s' → m'.id ≠ m.id
  added : ∀ m now, call = .add m now → answer = .ok .stored →
    ∃ s, Stored after m s ∧ (s = .published ↔ m.time ≤ now)
  /-- Marking says whether there is a message with the id, publishes that and leaves the
  others alone. -/
  marked : ∀ id, call = .mark id →
    (∃ found, answer = .ok (.marked found) ∧ (found = true ↔ ∃ m s, Stored db m s ∧ m.id = id)) ∧
      (∀ m s, Stored db m s → m.id = id → Stored after m .published) ∧
      ∀ m s, m.id ≠ id → (Stored after m s ↔ Stored db m s)
  pruned : ∀ c, call = .prune c → ∀ m s,
    Stored after m s ↔ Stored db m s ∧ ¬ (m.time < c ∧ s = .published)
  /-- Every message that is read is stored as it is read. -/
  read : ∀ ms, answer = .ok (.messages ms) → ∀ m ∈ ms, ∃ s, Stored db m s
  failed : ∀ e, answer = .error e → after = db

/-- A call that fails changes nothing. -/
theorem Call.run_of_error {db : Database} {call : Call} {e : StoreError}
    (h : (call.run db).1 = .error e) : (call.run db).2 = db := by
  have hwriting : ∀ r : Except StoreError (Reply × Database),
      (writing db r).1 = .error e → (writing db r).2 = db := by
    intro r hr
    cases r with
    | error _ => rfl
    | ok _ => cases hr
  cases call with
  | add m now => exact hwriting _ h
  | mark id => exact hwriting _ h
  | prune olderThan => exact hwriting _ h
  | since _ _ _ | due _ | state _ | count _ | total | topics | size _ _ | expired _ => rfl

end Store

section Calls

variable {db after : Database} {es : Contents}

theorem atInsert_eq_published {time now : Int64} :
    DeliveryState.atInsert time now = .published ↔ time ≤ now := by
  unfold DeliveryState.atInsert
  split
  · rename_i h
    exact iff_of_true rfl h
  · rename_i h
    exact iff_of_false (fun h => (nomatch h)) h

/-- Every message of an answer is among the contents. -/
theorem Contents.has_of_answer {call : Store.Call} {ms : List Message} {m : Message}
    (h : es.answer call = .ok (.messages ms)) (hm : m ∈ ms) : ∃ s, es.Has m s := by
  have hall : ∀ p : Entry → Bool, m ∈ es.listing p → ∃ s, es.Has m s := by
    intro p hmem
    obtain ⟨e, he, -, rfl⟩ := mem_listing.mp hmem
    exact ⟨e.state, e, he, rfl, rfl⟩
  cases call with
  | since topic bound scheduled =>
      unfold Contents.answer at h
      cases hbound : bound.timestamp with
      | none =>
          simp only [hbound] at h
          cases h
          cases hm
      | some time =>
          simp only [hbound] at h
          cases h
          exact hall _ hm
  | due now =>
      cases h
      exact hall _ hm
  | add m' now =>
      obtain ⟨_, -, hreply⟩ := map_eq_ok.mp h
      cases hreply
  | size owner now =>
      rw [Contents.answer] at h
      obtain ⟨_, -, hreply⟩ := map_eq_ok.mp h
      cases hreply
  | mark _ | state _ | count _ | total | topics | prune _ | expired _ => cases h

/-- What is there after a call, when something was there before. -/
theorem Contents.kept_after (h : es.Distinct) {m : Message} {s : DeliveryState}
    (hm : es.Has m s) (call : Store.Call) :
    (es.after call).Has m s ∨
      (s = .scheduled ∧ call = .mark m.id ∧ (es.after call).Has m .published) ∨
      (s = .published ∧ ∃ c, call = .prune c ∧ m.time < c ∧ ∀ s', ¬ (es.after call).Has m s') := by
  cases call with
  | add m' now =>
      rw [Contents.after]
      cases hadd : es.add m' now with
      | error _ => exact .inl hm
      | ok es' => exact .inl ((has_add hadd).mpr (.inr hm))
  | mark id =>
      by_cases hid : m.id = id
      · have hpublished : (es.after (.mark id)).Has m .published :=
          has_mark.mpr (by rw [if_pos hid]; exact ⟨rfl, s, hm⟩)
        cases s with
        | published => exact .inl hpublished
        | scheduled => exact .inr (.inl ⟨rfl, by rw [hid], hpublished⟩)
      · exact .inl (has_mark.mpr (by rw [if_neg hid]; exact hm))
  | prune c =>
      by_cases hpruned : m.time < c ∧ s = .published
      · refine .inr (.inr ⟨hpruned.2, c, rfl, hpruned.1, fun s' hs' => ?_⟩)
        obtain ⟨hold, hkept⟩ := has_prune.mp hs'
        have hstate := (h.has_unique hm hold rfl).2
        exact hkept ⟨hpruned.1, hstate ▸ hpruned.2⟩
      · exact .inl (has_prune.mpr ⟨hm, hpruned⟩)
  | since _ _ _ | due _ | state _ | count _ | total | topics | size _ _ | expired _ => exact .inl hm

/-- Where what is there after a call comes from. -/
theorem Contents.origin_after {m : Message} {s : DeliveryState} {call : Store.Call}
    (hm : (es.after call).Has m s) :
    es.Has m s ∨ (s = .published ∧ call = .mark m.id ∧ es.Has m .scheduled) ∨
      ∃ now, call = .add m now ∧ es.answer call = .ok .stored ∧ (s = .published ↔ m.time ≤ now) ∧
        ∀ m' s', es.Has m' s' → m'.id ≠ m.id := by
  cases call with
  | add m' now =>
      rw [Contents.after] at hm
      cases hadd : es.add m' now with
      | error _ =>
          rw [hadd] at hm
          exact .inl hm
      | ok es' =>
          rw [hadd] at hm
          rcases (has_add hadd).mp hm with ⟨rfl, rfl⟩ | hold
          · refine .inr (.inr ⟨now, rfl, ?_, atInsert_eq_published, ?_⟩)
            · rw [Contents.answer, hadd]
              rfl
            · rintro m'' s'' ⟨d, hd, rfl, rfl⟩
              exact (add_eq_ok.mp hadd).2.1 d hd
          · exact .inl hold
  | mark id =>
      have hmark := has_mark.mp hm
      split at hmark
      · rename_i hid
        obtain ⟨rfl, s', hs'⟩ := hmark
        cases s' with
        | published => exact .inl hs'
        | scheduled => exact .inr (.inl ⟨rfl, by rw [hid], hs'⟩)
      · exact .inl hmark
  | prune c => exact .inl (has_prune.mp hm).1
  | since _ _ _ | due _ | state _ | count _ | total | topics | size _ _ | expired _ => exact .inl hm

/-- What a call does to the contents, said of stored messages. -/
theorem Represents.transition (h : Represents db es) (call : Store.Call) :
    Store.Transition db call (call.run db).1 (call.run db).2 := by
  obtain ⟨after, hcall, hafter⟩ := h.call call
  have hfailed : ∀ e, (call.run db).1 = .error e → (call.run db).2 = db :=
    fun e he => Store.Call.run_of_error he
  rw [hcall] at hfailed ⊢
  constructor
  case failed => exact hfailed
  case kept =>
    intro m s hm
    simp only [h.stored_iff, hafter.stored_iff] at hm ⊢
    exact Contents.kept_after h.distinct hm call
  case origin =>
    intro m s hm
    simp only [h.stored_iff, hafter.stored_iff] at hm ⊢
    exact Contents.origin_after hm
  case added =>
    rintro m now rfl hanswer
    rw [Contents.answer] at hanswer
    obtain ⟨es', hadd, -⟩ := map_eq_ok.mp hanswer
    refine ⟨.atInsert m.time now, ?_, atInsert_eq_published⟩
    rw [hafter.stored_iff, Contents.after, hadd]
    exact (Contents.has_add hadd).mpr (.inl ⟨rfl, rfl⟩)
  case marked =>
    rintro id rfl
    simp only [h.stored_iff, hafter.stored_iff, Contents.has_mark]
    refine ⟨⟨_, rfl, ?_⟩, ?_, ?_⟩
    · rw [List.any_eq_true]
      constructor
      · rintro ⟨e, he, hid⟩
        exact ⟨e.message, e.state, ⟨e, he, rfl, rfl⟩, Entry.hasId_iff.mp hid⟩
      · rintro ⟨m, s, ⟨e, he, rfl, rfl⟩, hid⟩
        exact ⟨e, he, Entry.hasId_iff.mpr hid⟩
    · intro m s hm hid
      rw [if_pos hid]
      exact ⟨trivial, s, hm⟩
    · intro m s hid
      rw [if_neg hid]
  case pruned =>
    rintro c rfl m s
    rw [h.stored_iff, hafter.stored_iff]
    exact Contents.has_prune
  case read =>
    intro ms hms m hm
    obtain ⟨s, hs⟩ := Contents.has_of_answer hms hm
    exact ⟨s, (h.stored_iff m s).mpr hs⟩

end Calls

/-! ## All later calls -/

namespace Store

/-- What holds of the messages of a store, now and after any calls. -/
structure LifeCycle (db : Database) : Prop where
  unique : ∀ m s m' s', Stored db m s → Stored db m' s' → m.id = m'.id → m = m' ∧ s = s'
  /-- An id with a state is that of a stored message. -/
  known : ∀ id s, messageState db id = .ok (some s) → ∃ m, m.id = id ∧ Stored db m s
  step : ∀ call : Call, Transition db call (call.run db).1 (call.run db).2
  /-- After any calls a message is stored as it was, in the same state unless it was marked,
  or it was pruned in between, when it was published and older than asked for. -/
  later : ∀ calls m s, Stored db m s →
    (∃ s', Stored (run db calls).2 m s' ∧
      (s' = s ∨ s = .scheduled ∧ s' = .published ∧ .mark m.id ∈ calls)) ∨
    ∃ first c rest, calls = first ++ .prune c :: rest ∧ (s = .published ∨ .mark m.id ∈ first) ∧
      Stored (run db first).2 m .published ∧ m.time < c ∧
      ∀ s', ¬ Stored (run db (first ++ [.prune c])).2 m s'

end Store

section Runs

variable {db : Database} {es : Contents}

theorem run_cons (db : Database) (call : Store.Call) (calls : List Store.Call) :
    (Store.run db (call :: calls)).2 = (Store.run (call.run db).2 calls).2 := rfl

theorem run_append (db : Database) (calls rest : List Store.Call) :
    (Store.run db (calls ++ rest)).2 = (Store.run (Store.run db calls).2 rest).2 := by
  induction calls generalizing db with
  | nil => rfl
  | cons call calls ih =>
      rw [List.cons_append, run_cons, run_cons]
      exact ih (call.run db).2

/-- A message after any calls: by induction on the calls, each of which keeps it, publishes
it or takes it out. -/
theorem Represents.later (h : Represents db es) (calls : List Store.Call) {m : Message}
    {s : DeliveryState} (hm : Store.Stored db m s) :
    (∃ s', Store.Stored (Store.run db calls).2 m s' ∧
      (s' = s ∨ s = .scheduled ∧ s' = .published ∧ .mark m.id ∈ calls)) ∨
    ∃ first c rest, calls = first ++ .prune c :: rest ∧ (s = .published ∨ .mark m.id ∈ first) ∧
      Store.Stored (Store.run db first).2 m .published ∧ m.time < c ∧
      ∀ s', ¬ Store.Stored (Store.run db (first ++ [.prune c])).2 m s' := by
  induction calls generalizing db es s with
  | nil => exact .inl ⟨s, hm, .inl rfl⟩
  | cons call calls ih =>
      obtain ⟨after, hcall, hafter⟩ := h.call call
      have hdb : (call.run db).2 = after := by rw [hcall]
      have hkept := (h.transition call).kept m s hm
      rw [hdb] at hkept
      rcases hkept with hsame | ⟨rfl, rfl, hpublished⟩ | ⟨rfl, c, rfl, hlt, hgone⟩
      · rcases ih hafter hsame with
          ⟨s', hs', hstate⟩ | ⟨first, c, rest, rfl, hmarked, hbefore, hlt, hgone⟩
        · refine .inl ⟨s', by rw [run_cons, hdb]; exact hs', ?_⟩
          exact hstate.imp id fun ⟨hs, hs', hmark⟩ => ⟨hs, hs', List.mem_cons_of_mem _ hmark⟩
        · refine .inr ⟨call :: first, c, rest, rfl, ?_, ?_, hlt, ?_⟩
          · exact hmarked.imp id (List.mem_cons_of_mem _)
          · rw [run_cons, hdb]
            exact hbefore
          · rw [List.cons_append, run_cons, hdb]
            exact hgone
      · -- from here on it is published
        rcases ih hafter hpublished with
          ⟨s', hs', hstate⟩ | ⟨first, c, rest, rfl, -, hbefore, hlt, hgone⟩
        · have hs : s' = .published := hstate.elim id fun h => (nomatch h.1)
          refine .inl ⟨s', by rw [run_cons, hdb]; exact hs', ?_⟩
          exact .inr ⟨rfl, hs, List.mem_cons_self⟩
        · refine .inr ⟨_ :: first, c, rest, rfl, .inr List.mem_cons_self, ?_, hlt, ?_⟩
          · rw [run_cons, hdb]
            exact hbefore
          · rw [List.cons_append, run_cons, hdb]
            exact hgone
      · refine .inr ⟨[], c, calls, rfl, .inl rfl, hm, hlt, ?_⟩
        rw [List.nil_append, run_cons, hdb]
        exact hgone

theorem Represents.lifeCycle (h : Represents db es) : Store.LifeCycle db where
  unique := by
    intro m s m' s' hm hm' hid
    rw [h.stored_iff] at hm hm'
    exact h.distinct.has_unique hm hm' hid
  known := by
    intro id s hs
    obtain ⟨t, ht, hcurrent, hrows⟩ := h.exists_table
    rw [messageState_eq ht hcurrent hrows] at hs
    obtain ⟨e, he, rfl⟩ := Option.map_eq_some_iff.mp (Except.ok.inj hs)
    have hid : e.message.id = id := by
      have hhas : e.hasId id = true := List.find?_some he
      exact Entry.hasId_iff.mp hhas
    refine ⟨e.message, hid, ?_⟩
    rw [h.stored_iff]
    exact ⟨e, List.mem_of_find?_eq_some he, rfl, rfl⟩
  step := h.transition
  later := by
    intro calls m s hm
    exact h.later calls hm

/-- A store is one that calls on a new store lead to. -/
def Store.after (calls : List Store.Call) : Database :=
  (Store.run (ensureCurrent .granted .empty).database calls).2

theorem Store.after_append (calls rest : List Store.Call) :
    Store.after (calls ++ rest) = (Store.run (Store.after calls) rest).2 := run_append _ calls rest

theorem represents_after (calls : List Store.Call) :
    Represents (Store.after calls) (Contents.run [] calls).2 := (represents_fresh.run calls).2

theorem call_after (calls : List Store.Call) (call : Store.Call) :
    call.run (Store.after calls) =
      ((Contents.run [] calls).2.answer call, Store.after (calls ++ [call])) := by
  obtain ⟨after, hrun, -⟩ := (represents_after calls).call call
  rw [Store.after_append, run_cons, hrun]
  rfl

/-- The life of every message, whatever is called. -/
theorem lifeCycle_of_calls (calls : List Store.Call) : Store.LifeCycle (Store.after calls) :=
  (represents_fresh.run calls).2.lifeCycle

end Runs

end MessageCache
