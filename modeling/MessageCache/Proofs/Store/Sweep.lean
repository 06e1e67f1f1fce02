/-
# Sweeps that run beside each other

A sweep is a question for what is due, and then one call of `mark` for each id of the
answer.  Between any two of these calls there can be those of other sweepers and of other
clients, which add, prune and read.  `Step` is one call of one of them, and `Run` is any
order of calls that keeps each sweeper to its own.

    an id stays on the list of a sweeper until the sweeper marks it       (`Run.left`)
    a message that is marked is published, or it is pruned afterwards     (`Represents.marked`)

So a sweep misses nothing (`sweep_complete`), though a mark may find nothing: it comes after
that of another sweeper, and after a pruning.
-/
import Mathlib.Logic.Function.Basic
import MessageCache.Proofs.Store.Listing

namespace MessageCache

/-! ## What becomes of a message that is marked -/

namespace Store

/-- One of the calls prunes the message, which is published by then. -/
def PrunedIn (db : Database) (calls : List Call) (m : Message) : Prop :=
  ∃ first c rest, calls = first ++ .prune c :: rest ∧
    Stored (run db first).2 m .published ∧ m.time < c ∧
    ∀ s, ¬ Stored (run db (first ++ [.prune c])).2 m s

variable {db : Database} {calls rest : List Call} {m : Message}

theorem PrunedIn.append_right (h : PrunedIn db calls m) (rest : List Call) :
    PrunedIn db (calls ++ rest) m := by
  obtain ⟨first, c, later, rfl, hbefore, hlt, hgone⟩ := h
  exact ⟨first, c, later ++ rest, by simp, hbefore, hlt, hgone⟩

theorem PrunedIn.append_left (h : PrunedIn (run db calls).2 rest m) :
    PrunedIn db (calls ++ rest) m := by
  obtain ⟨first, c, later, rfl, hbefore, hlt, hgone⟩ := h
  refine ⟨calls ++ first, c, later, by simp, ?_, hlt, ?_⟩
  · rw [run_append]
    exact hbefore
  · rw [List.append_assoc, run_append]
    exact hgone

end Store

section Marked

variable {db : Database} {es : Contents} {calls : List Store.Call} {m : Message}
  {s : DeliveryState}

/-- A stored message is still stored after any calls, or it was pruned. -/
theorem Represents.kept (h : Represents db es) (hm : Store.Stored db m s)
    (calls : List Store.Call) :
    (∃ s', Store.Stored (Store.run db calls).2 m s') ∨ Store.PrunedIn db calls m := by
  rcases h.later calls hm with ⟨s', hs', -⟩ | ⟨first, c, rest, heq, -, hpruned⟩
  · exact .inl ⟨s', hs'⟩
  · exact .inr ⟨first, c, rest, heq, hpruned⟩

theorem Represents.published (h : Represents db es) (hm : Store.Stored db m .published)
    (calls : List Store.Call) :
    Store.Stored (Store.run db calls).2 m .published ∨ Store.PrunedIn db calls m := by
  rcases h.later calls hm with ⟨s', hs', hsame⟩ | ⟨first, c, rest, heq, -, hpruned⟩
  · obtain rfl : s' = .published := hsame.elim id fun h => nomatch h.1
    exact .inl hs'
  · exact .inr ⟨first, c, rest, heq, hpruned⟩

/-- A message that is marked is published from then on, or it was pruned. -/
theorem Represents.marked (h : Represents db es) (hm : Store.Stored db m s)
    (hmark : .mark m.id ∈ calls) :
    Store.Stored (Store.run db calls).2 m .published ∨ Store.PrunedIn db calls m := by
  obtain ⟨first, rest, rfl⟩ := List.append_of_mem hmark
  have hsplit : first ++ .mark m.id :: rest = first ++ [.mark m.id] ++ rest := by simp
  rw [hsplit]
  rcases h.kept hm first with ⟨s', hs'⟩ | hpruned
  · have hpublished : Store.Stored (Store.run db (first ++ [.mark m.id])).2 m .published := by
      rw [run_append]
      exact (((h.run first).2.transition (.mark m.id)).marked m.id rfl).2.1 m s' hs' rfl
    rw [run_append]
    exact ((h.run _).2.published hpublished rest).imp id Store.PrunedIn.append_left
  · exact .inr ((hpruned.append_right _).append_right _)

end Marked

/-! ## Sweepers and other clients -/

/-- Where a sweeper is: before its question, or with these ids left to mark. -/
inductive Sweeper where
  | waiting
  | marking (left : List String)

namespace Sweeper

/-- The ids that are left to mark. -/
def left : Sweeper → List String
  | waiting => []
  | marking left => left

/-- The list that a sweeper makes of the answer to its question. -/
def told : Except StoreError Store.Reply → Sweeper
  | .ok (.messages ms) => marking (ms.map (·.id))
  | _ => marking []

end Sweeper

/-- A sweeper is told the ids of the scheduled messages whose time has come, once each. -/
theorem Represents.told_due {db : Database} {es : Contents} (h : Represents db es)
    (time : Int64) : ∃ left, Sweeper.told ((Store.Call.due time).run db).1 = .marking left ∧
      left.Nodup ∧ (∀ id, id ∈ left ↔
        ∃ m, Store.Stored db m .scheduled ∧ m.time ≤ time ∧ m.id = id) := by
  obtain ⟨after, hrun, -⟩ := h.call (.due time)
  refine ⟨(es.listing (Entry.isDue time)).map (·.id), ?_, h.distinct.nodup_listing _, ?_⟩
  · rw [hrun]
    rfl
  · intro id
    simp only [h.stored_iff, List.mem_map, Contents.mem_listing]
    constructor
    · rintro ⟨_, ⟨e, he, hdue, rfl⟩, rfl⟩
      obtain ⟨htime, hstate⟩ := of_decide_eq_true hdue
      exact ⟨e.message, ⟨e, he, rfl, hstate⟩, htime, rfl⟩
    · rintro ⟨_, ⟨e, he, rfl, hstate⟩, htime, rfl⟩
      exact ⟨e.message, ⟨e, he, decide_eq_true ⟨htime, hstate⟩, rfl⟩, rfl⟩

namespace Sweeps

/-- Who makes a call. -/
inductive Actor (ι : Type) where
  | sweeper (i : ι)
  | client
deriving DecidableEq

structure Event (ι : Type) where
  actor : Actor ι
  call : Store.Call
  answer : Except StoreError Store.Reply

/-- A store and the sweepers that use it. -/
structure System (ι : Type) where
  db : Database
  sweeper : ι → Sweeper

namespace System

variable {ι : Type}

/-- The sweepers have not begun yet. -/
def start (db : Database) : System ι := { db, sweeper := fun _ => .waiting }

/-- After a call, by which a sweeper gets to another place. -/
def after (s : System ι) (call : Store.Call) (sweeper : ι → Sweeper) : System ι :=
  { db := (call.run s.db).2, sweeper }

/-- The store represents contents, and no sweeper has an id on its list twice. -/
structure Sound (s : System ι) : Prop where
  represents : ∃ es, Represents s.db es
  nodup : ∀ i, (s.sweeper i).left.Nodup

theorem sound_start (calls : List Store.Call) :
    (start (Store.after calls) : System ι).Sound where
  represents := ⟨_, represents_after calls⟩
  nodup := fun _ => List.nodup_nil

end System

section Runs

variable {ι : Type} [DecidableEq ι]

/-- One call.  Sweepers ask for what is due at some time of theirs, and mark what they are
told; others do not mark. -/
inductive Step (now : ι → Int64) (s : System ι) : Event ι → System ι → Prop
  | ask {i : ι} : s.sweeper i = .waiting →
      Step now s ⟨.sweeper i, .due (now i), ((Store.Call.due (now i)).run s.db).1⟩
        (s.after (.due (now i))
          (Function.update s.sweeper i (.told ((Store.Call.due (now i)).run s.db).1)))
  | mark {i : ι} {id : String} {rest : List String} : s.sweeper i = .marking (id :: rest) →
      Step now s ⟨.sweeper i, .mark id, ((Store.Call.mark id).run s.db).1⟩
        (s.after (.mark id) (Function.update s.sweeper i (.marking rest)))
  | other {call : Store.Call} : (∀ id, call ≠ .mark id) →
      Step now s ⟨.client, call, (call.run s.db).1⟩ (s.after call s.sweeper)

/-- Calls in the order in which they come. -/
inductive Run (now : ι → Int64) : System ι → List (Event ι) → System ι → Prop
  | nil {s : System ι} : Run now s [] s
  | cons {s t u : System ι} {e : Event ι} {events : List (Event ι)} :
      Step now s e t → Run now t events u → Run now s (e :: events) u

variable {now : ι → Int64} {s t u : System ι} {e : Event ι} {events rest : List (Event ι)}

theorem Step.run_eq (h : Step now s e t) : e.call.run s.db = (e.answer, t.db) := by
  cases h <;> rfl

theorem Run.run_eq (h : Run now s events t) :
    Store.run s.db (events.map (·.call)) = (events.map (·.answer), t.db) := by
  induction h with
  | nil => rfl
  | cons hstep _ ih =>
      rw [List.map_cons, Store.run, hstep.run_eq]
      simp only [ih, List.map_cons]

theorem Run.append (h : Run now s events t) (h' : Run now t rest u) :
    Run now s (events ++ rest) u := by
  induction h with
  | nil => exact h'
  | cons hstep _ ih => exact .cons hstep (ih h')

theorem Run.exists_of_append (h : Run now s (events ++ rest) u) :
    ∃ t, Run now s events t ∧ Run now t rest u := by
  induction events generalizing s with
  | nil => exact ⟨s, .nil, h⟩
  | cons e events ih =>
      cases h with
      | cons hstep hrest =>
          obtain ⟨t, hevents, hrest⟩ := ih hrest
          exact ⟨t, .cons hstep hevents, hrest⟩

/-! ### What holds of every system -/

theorem System.nodup_update {sweeper : ι → Sweeper} {i : ι} {x : Sweeper}
    (h : ∀ j, (sweeper j).left.Nodup) (hx : x.left.Nodup) :
    ∀ j, (Function.update sweeper i x j).left.Nodup := by
  rw [Function.forall_update_iff sweeper fun _ y => y.left.Nodup]
  exact ⟨hx, fun j _ => h j⟩

theorem Step.sound (h : Step now s e t) (hs : s.Sound) : t.Sound := by
  obtain ⟨es, hes⟩ := hs.represents
  have hdb : ∃ es, Represents t.db es := by
    obtain ⟨after, hcall, hafter⟩ := hes.call e.call
    rw [h.run_eq] at hcall
    rw [(Prod.mk.inj hcall).2]
    exact ⟨_, hafter⟩
  refine ⟨hdb, ?_⟩
  cases h with
  | @ask i _ =>
      obtain ⟨left, htold, hnodup, -⟩ := hes.told_due (now i)
      refine System.nodup_update hs.nodup ?_
      rw [htold]
      exact hnodup
  | @mark i id rest hleft =>
      have hnodup := hs.nodup i
      rw [hleft] at hnodup
      exact System.nodup_update hs.nodup hnodup.of_cons
  | other _ => exact hs.nodup

theorem Run.sound (h : Run now s events t) (hs : s.Sound) : t.Sound := by
  induction h with
  | nil => exact hs
  | cons hstep _ ih => exact ih (hstep.sound hs)

/-- No call of a sweeper fails. -/
theorem Step.answered (h : Step now s e t) (hs : s.Sound) {i : ι} (hi : e.actor = .sweeper i) :
    ∃ reply, e.answer = .ok reply := by
  obtain ⟨es, hes⟩ := hs.represents
  obtain ⟨after, hcall, -⟩ := hes.call e.call
  rw [h.run_eq] at hcall
  rw [(Prod.mk.inj hcall).1]
  cases h with
  | ask _ | mark _ => exact ⟨_, rfl⟩
  | other _ => cases hi

theorem Run.answered (h : Run now s events t) (hs : s.Sound) :
    ∀ e ∈ events, ∀ i, e.actor = .sweeper i → ∃ reply, e.answer = .ok reply := by
  induction h with
  | nil =>
      intro e he
      cases he
  | cons hstep _ ih =>
      intro e he i hi
      rcases List.mem_cons.mp he with rfl | he
      · exact hstep.answered hs hi
      · exact ih (hstep.sound hs) e he i hi

/-! ### Lists get shorter by what is marked -/

/-- The id that a sweeper marks. -/
def Event.marks (i : ι) (e : Event ι) : List String :=
  match e.call with
  | .mark id => if e.actor = .sweeper i then [id] else []
  | _ => []

theorem Event.mem_marks {i : ι} {id : String} :
    id ∈ e.marks i ↔ e.actor = .sweeper i ∧ e.call = .mark id := by
  unfold marks
  split
  · rename_i d hcall
    rw [hcall]
    by_cases hactor : e.actor = .sweeper i <;> simp [hactor, eq_comm]
  · rename_i hcall
    exact iff_of_false List.not_mem_nil fun h => hcall id h.2

theorem Step.left (h : Step now s e t) {i : ι} {left : List String}
    (hs : s.sweeper i = .marking left) :
    ∃ rest, t.sweeper i = .marking rest ∧ left = e.marks i ++ rest := by
  cases h with
  | @ask j hj =>
      have hij : i ≠ j := by
        rintro rfl
        cases hs.symm.trans hj
      exact ⟨left, (Function.update_of_ne hij _ _).trans hs, rfl⟩
  | @mark j id rest hj =>
      by_cases hij : i = j
      · subst hij
        obtain rfl : left = id :: rest := Sweeper.marking.inj (hs.symm.trans hj)
        exact ⟨rest, Function.update_self .., by simp [Event.marks]⟩
      · refine ⟨left, (Function.update_of_ne hij _ _).trans hs, ?_⟩
        simp [Event.marks, Ne.symm hij]
  | @other call hcall =>
      refine ⟨left, hs, ?_⟩
      have hnone : Event.marks i ⟨.client, call, (call.run s.db).1⟩ = [] := by
        rw [List.eq_nil_iff_forall_not_mem]
        intro id hid
        exact hcall id (Event.mem_marks.mp hid).2
      rw [hnone]
      rfl

theorem Run.left (h : Run now s events t) {i : ι} {left : List String}
    (hs : s.sweeper i = .marking left) :
    ∃ rest, t.sweeper i = .marking rest ∧ left = events.flatMap (Event.marks i) ++ rest := by
  induction h generalizing left with
  | nil => exact ⟨left, hs, rfl⟩
  | cons hstep _ ih =>
      obtain ⟨mid, hmid, rfl⟩ := hstep.left hs
      obtain ⟨rest, hrest, rfl⟩ := ih hmid
      exact ⟨rest, hrest, by rw [List.flatMap_cons, List.append_assoc]⟩

/-! ### Sweeps are complete -/

theorem Step.actor_eq (h : Step now s e t) :
    (∀ id, e.call = .mark id → ∃ i, e.actor = .sweeper i) ∧
      ∀ c, e.call = .prune c → e.actor = .client := by
  cases h with
  | ask _ => exact ⟨fun _ h => (nomatch h), fun _ h => (nomatch h)⟩
  | mark _ => exact ⟨fun _ _ => ⟨_, rfl⟩, fun _ h => (nomatch h)⟩
  | other hcall => exact ⟨fun id h => absurd h (hcall id), fun _ _ => rfl⟩

theorem Run.actor_eq (h : Run now s events t) : ∀ e ∈ events,
    (∀ id, e.call = .mark id → ∃ i, e.actor = .sweeper i) ∧
      ∀ c, e.call = .prune c → e.actor = .client := by
  induction h with
  | nil =>
      intro e he
      cases he
  | cons hstep _ ih => exact List.forall_mem_cons.mpr ⟨hstep.actor_eq, ih⟩

/-- A sweep from its question on, at which the system was as `asked`, up to any later state:
what was scheduled and due is published when the sweeper is done, nothing gets lost while
it is scheduled, and an id is missing only if another sweeper marked it and then a pruning
came. -/
structure Complete (now : ι → Int64) (i : ι) (asked finished : System ι)
    (events : List (Event ι)) : Prop where
  published : finished.sweeper i = .marking [] →
    ∀ m, Store.Stored asked.db m .scheduled → m.time ≤ now i →
      Store.Stored finished.db m .published ∨
        Store.PrunedIn asked.db (events.map (·.call)) m
  kept : ∀ m s, Store.Stored asked.db m s →
    (∃ s', Store.Stored finished.db m s') ∨ Store.PrunedIn asked.db (events.map (·.call)) m
  missing : ∀ id first rest,
    events = first ++ ⟨.sweeper i, .mark id, .ok (.marked false)⟩ :: rest →
      ∃ j ≠ i, ∃ c found count before between after,
        first = before ++ ⟨.sweeper j, .mark id, found⟩ ::
          (between ++ ⟨.client, .prune c, count⟩ :: after)

theorem Step.due_eq {i : ι} {answer : Except StoreError Store.Reply}
    (h : Step now s ⟨.sweeper i, .due (now i), answer⟩ t) :
    t.db = s.db ∧ t.sweeper i = .told ((Store.Call.due (now i)).run s.db).1 := by
  cases h with
  | ask _ => exact ⟨rfl, Function.update_self ..⟩

/-- What a sweeper is about to mark it has not marked before. -/
theorem Run.notMem_marks {i : ι} {left : List String} {id : String}
    {answer : Except StoreError Store.Reply} (h : Run now s events t) (hs : s.Sound)
    (hleft : s.sweeper i = .marking left)
    (hmark : Step now t ⟨.sweeper i, .mark id, answer⟩ u) :
    id ∈ left ∧ id ∉ events.flatMap (Event.marks i) := by
  obtain ⟨rest, hrest, rfl⟩ := h.left hleft
  have hnodup := hs.nodup i
  rw [hleft, Sweeper.left, List.nodup_append] at hnodup
  cases hmark with
  | @mark _ _ later hlater =>
      obtain rfl : rest = id :: later := Sweeper.marking.inj (hrest.symm.trans hlater)
      refine ⟨List.mem_append_right _ List.mem_cons_self, ?_⟩
      intro hmem
      exact hnodup.2.2 id hmem id List.mem_cons_self rfl

/-- A mark that finds nothing comes after the message is gone. -/
theorem Step.not_stored_of_missing {i : ι} {m : Message}
    (h : Step now s ⟨.sweeper i, .mark m.id, .ok (.marked false)⟩ t) (hs : s.Sound) :
    ∀ state, ¬ Store.Stored s.db m state := by
  intro state hm
  obtain ⟨es, hes⟩ := hs.represents
  obtain ⟨found, hanswer, hfound⟩ := ((hes.transition (.mark m.id)).marked m.id rfl).1
  rw [h.run_eq] at hanswer
  cases hanswer
  exact nomatch hfound.mpr ⟨m, state, hm, rfl⟩

/-- A scheduled message whose id a sweeper does not find was marked by another sweeper, and
then pruned. -/
theorem Run.missing {i : ι} {left : List String} {m : Message} (h : Run now s events t)
    (hs : s.Sound) (hleft : s.sweeper i = .marking left)
    (hm : Store.Stored s.db m .scheduled)
    (hmark : Step now t ⟨.sweeper i, .mark m.id, .ok (.marked false)⟩ u) :
    ∃ j ≠ i, ∃ c found count before between after,
      events = before ++ ⟨.sweeper j, .mark m.id, found⟩ ::
        (between ++ ⟨.client, .prune c, count⟩ :: after) := by
  obtain ⟨es, hes⟩ := hs.represents
  have hgone := hmark.not_stored_of_missing (h.sound hs)
  rcases hes.later (events.map (·.call)) hm with
    ⟨state, hstored, -⟩ | ⟨calls, c, rest, hcalls, hmarked, -⟩
  · rw [h.run_eq] at hstored
    exact absurd hstored (hgone state)
  · have hmem : Store.Call.mark m.id ∈ calls := hmarked.resolve_left fun h => nomatch h
    obtain ⟨first, others, rfl, rfl, hothers⟩ := List.map_eq_append_iff.mp hcalls
    obtain ⟨⟨actor, _, count⟩, after, rfl, rfl, -⟩ := List.map_eq_cons_iff.mp hothers
    obtain ⟨⟨marker, call, found⟩, hmarker, hcall⟩ := List.mem_map.mp hmem
    obtain rfl : call = .mark m.id := hcall
    obtain ⟨before, between, rfl⟩ := List.append_of_mem hmarker
    obtain ⟨j, rfl⟩ := (h.actor_eq ⟨marker, .mark m.id, found⟩ (by simp)).1 m.id rfl
    obtain rfl : actor = .client := (h.actor_eq ⟨actor, .prune c, count⟩ (by simp)).2 c rfl
    refine ⟨j, ?_, c, found, count, before, between, after, by simp⟩
    rintro rfl
    refine (h.notMem_marks hs hleft hmark).2 (List.mem_flatMap.mpr ?_)
    exact ⟨_, List.mem_append_left _ hmarker, Event.mem_marks.mpr ⟨rfl, rfl⟩⟩

/-- No call of a sweeper fails, and each sweep is complete, whatever the others do. -/
theorem sweep_complete (calls : List Store.Call) {before : List (Event ι)} {i : ι}
    {answer : Except StoreError Store.Reply}
    (hbefore : Run now (.start (Store.after calls)) before s)
    (hask : Step now s ⟨.sweeper i, .due (now i), answer⟩ t) (hrun : Run now t events u) :
    (∀ e ∈ before ++ ⟨.sweeper i, .due (now i), answer⟩ :: events, ∀ j,
        e.actor = .sweeper j → ∃ reply, e.answer = .ok reply) ∧
      Complete now i s u events := by
  have hstart := System.sound_start (ι := ι) calls
  have hs := hbefore.sound hstart
  have ht := hask.sound hs
  obtain ⟨es, hes⟩ := hs.represents
  obtain ⟨hdb, htold⟩ := hask.due_eq
  obtain ⟨left, hleft, -, hmem⟩ := hes.told_due (now i)
  rw [hleft] at htold
  have hevents : (Store.run s.db (events.map (·.call))).2 = u.db := by rw [← hdb, hrun.run_eq]
  refine ⟨(hbefore.append (.cons hask hrun)).answered hstart, ?_⟩
  constructor
  case published =>
    intro hfinished m hm hdue
    obtain ⟨rest, hrest, hsplit⟩ := hrun.left htold
    obtain rfl : rest = [] := Sweeper.marking.inj (hrest.symm.trans hfinished)
    have hid : m.id ∈ left := (hmem m.id).mpr ⟨m, hm, hdue, rfl⟩
    rw [hsplit, List.append_nil] at hid
    obtain ⟨e, he, hmarks⟩ := List.mem_flatMap.mp hid
    have hmark : Store.Call.mark m.id ∈ events.map (·.call) :=
      List.mem_map.mpr ⟨e, he, (Event.mem_marks.mp hmarks).2⟩
    rw [← hevents]
    exact hes.marked hm hmark
  case kept =>
    intro m state hm
    rw [← hevents]
    exact hes.kept hm _
  case missing =>
    rintro id first rest rfl
    obtain ⟨w, hfirst, hrest⟩ := hrun.exists_of_append
    cases hrest with
    | cons hmark _ =>
        obtain ⟨m, hm, -, rfl⟩ := (hmem id).mp (hfirst.notMem_marks ht htold hmark).1
        rw [← hdb] at hm
        exact hfirst.missing ht htold hm hmark

/-! ### Runs on a new store -/

theorem Step.ask_after {calls : List Store.Call} {place : ι → Sweeper} {i : ι}
    {ms : List Message} (hi : place i = .waiting)
    (hanswer : (Contents.run [] calls).2.answer (.due (now i)) = .ok (.messages ms)) :
    Step now ⟨Store.after calls, place⟩ ⟨.sweeper i, .due (now i), .ok (.messages ms)⟩
      ⟨Store.after (calls ++ [.due (now i)]),
        Function.update place i (.marking (ms.map (·.id)))⟩ := by
  have h : Step now ⟨Store.after calls, place⟩ _ _ := .ask hi
  simp only [System.after, call_after, hanswer] at h
  exact h

theorem Step.mark_after {calls : List Store.Call} {place : ι → Sweeper} {i : ι} {id : String}
    {answer : Except StoreError Store.Reply} (left : List String)
    (hi : place i = .marking (id :: left))
    (hanswer : (Contents.run [] calls).2.answer (.mark id) = answer) :
    Step now ⟨Store.after calls, place⟩ ⟨.sweeper i, .mark id, answer⟩
      ⟨Store.after (calls ++ [.mark id]), Function.update place i (.marking left)⟩ := by
  have h : Step now ⟨Store.after calls, place⟩ _ _ := .mark hi
  simp only [System.after, call_after, hanswer] at h
  exact h

theorem Step.other_after {calls : List Store.Call} {place : ι → Sweeper} {call : Store.Call}
    {answer : Except StoreError Store.Reply} (hcall : ∀ id, call ≠ .mark id)
    (hanswer : (Contents.run [] calls).2.answer call = answer) :
    Step now ⟨Store.after calls, place⟩ ⟨.client, call, answer⟩
      ⟨Store.after (calls ++ [call]), place⟩ := by
  have h : Step now ⟨Store.after calls, place⟩ _ _ := .other hcall
  simp only [System.after, call_after, hanswer] at h
  exact h

end Runs

def early : Message := Message.new "x" 5 "t" ""

/-- Two sweepers are told of the same message; the second marks it, and it is pruned. -/
theorem exists_race : ∃ s t : System Bool, ∃ place,
    Run (fun _ => 10) (.start (Store.after [.add early 0]))
        [⟨.sweeper true, .due 10, .ok (.messages [early])⟩] s ∧
      Step (fun _ => 10) s ⟨.sweeper false, .due 10, .ok (.messages [early])⟩ t ∧
      Run (fun _ => 10) t [⟨.sweeper true, .mark "x", .ok (.marked true)⟩,
          ⟨.client, .prune 100, .ok (.pruned 1)⟩]
        ⟨Store.after [.add early 0, .due 10, .due 10, .mark "x", .prune 100], place⟩ ∧
      place false = .marking ["x"] := by
  refine ⟨_, _, _, .cons (Step.ask_after rfl ?_) .nil, Step.ask_after rfl ?_,
    .cons (Step.mark_after [] rfl ?_) (.cons (Step.other_after ?_ ?_) .nil), rfl⟩
  · rfl
  · rfl
  · rfl
  · intro id hcall
    cases hcall
  · rfl

/-- The sweep of the first one is complete all the same; its mark finds nothing. -/
theorem sweep_complete_race : ∃ s t u : System Bool,
    Run (fun _ => 10) (.start (Store.after [.add early 0]))
        [⟨.sweeper true, .due 10, .ok (.messages [early])⟩] s ∧
      Step (fun _ => 10) s ⟨.sweeper false, .due 10, .ok (.messages [early])⟩ t ∧
      Run (fun _ => 10) t [⟨.sweeper true, .mark "x", .ok (.marked true)⟩,
        ⟨.client, .prune 100, .ok (.pruned 1)⟩,
        ⟨.sweeper false, .mark "x", .ok (.marked false)⟩] u ∧
      u.sweeper false = .marking [] ∧
      Complete (fun _ => 10) false s u [⟨.sweeper true, .mark "x", .ok (.marked true)⟩,
        ⟨.client, .prune 100, .ok (.pruned 1)⟩,
        ⟨.sweeper false, .mark "x", .ok (.marked false)⟩] := by
  obtain ⟨s, t, place, hbefore, hask, hrace, hplace⟩ := exists_race
  have hlast := hrace.append (.cons (Step.mark_after [] hplace rfl) .nil)
  have hfinished : Function.update place false (.marking []) false = .marking [] :=
    Function.update_self ..
  exact ⟨s, t, _, hbefore, hask, hlast, hfinished,
    (sweep_complete [.add early 0] hbefore hask hlast).2⟩

end Sweeps

end MessageCache
