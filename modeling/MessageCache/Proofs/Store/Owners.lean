/-
# Owners of attachments stay out of sight

An owner is stored with an attachment, and only the question what somebody's attachments
take up depends on it.  Taking the owners out of what is stored and out of what is added
commutes with every call:

    es         —call→                after
     │                                 │      withoutOwner
    es.withoutOwner —call.withoutOwner→ after.withoutOwner

(`Contents.after_withoutOwner`), and the answers show the same on both sides
(`Contents.shown_answer`).  So what is shown of calls is what is shown of the calls without
owners, and two lists of calls that differ in owners only show the same (`seen_eq_of_owners`).
-/
import MessageCache.Proofs.Message.Json
import MessageCache.Proofs.Store.LifeCycle

namespace MessageCache

/-! ## What is shown of answers -/

namespace Store

/-- What is shown of a reply. -/
inductive Sight where
  /-- Messages, as the texts that they are sent as. -/
  | texts (texts : List String)
  | reply (reply : Reply)
deriving DecidableEq

def Reply.sight : Reply → Sight
  | .messages ms => .texts (ms.map Message.toJson)
  | reply => .reply reply

namespace Call

/-- The call with nobody as the owner of what is added. -/
def withoutOwner : Call → Call
  | .add m now => .add m.withoutOwner now
  | call => call

/-- What is shown of an answer; what an owner's attachments take up is not. -/
def shown (call : Call) (answer : Except StoreError Reply) : Option (Except StoreError Sight) :=
  match call with
  | .size _ _ => none
  | _ => some (answer.map Reply.sight)

end Call

/-- What is shown of the answers to calls one after the other. -/
def seen (db : Database) (calls : List Call) : List (Option (Except StoreError Sight)) :=
  List.zipWith Call.shown calls (run db calls).1

end Store

/-! ## Contents without owners -/

def Entry.withoutOwner (e : Entry) : Entry := { e with message := e.message.withoutOwner }

namespace Contents

def withoutOwner (es : Contents) : Contents := es.map Entry.withoutOwner

variable {es : Contents} {m : Message} {now : Int64}

section Conditions

theorem isExpired_withoutOwner (now : Int64) (e : Entry) :
    e.withoutOwner.isExpired now = e.isExpired now := by
  unfold Entry.isExpired Entry.withoutOwner Message.withoutOwner
  cases e.message.attachment <;> rfl

theorem expires_withoutOwner (e : Entry) : e.withoutOwner.expires = e.expires := by
  unfold Entry.expires Entry.withoutOwner Message.withoutOwner
  cases e.message.attachment <;> rfl

variable (p : Entry → Bool) (hp : ∀ e : Entry, p e.withoutOwner = p e)
include hp

theorem filter_withoutOwner : es.withoutOwner.filter p = withoutOwner (es.filter p) := by
  have hsame : p ∘ Entry.withoutOwner = p := funext hp
  rw [withoutOwner, List.filter_map, hsame, withoutOwner]

theorem any_withoutOwner : es.withoutOwner.any p = es.any p := by
  have hsame : p ∘ Entry.withoutOwner = p := funext hp
  rw [withoutOwner, List.any_map, hsame]

theorem countP_withoutOwner : es.withoutOwner.countP p = es.countP p := by
  have hsame : p ∘ Entry.withoutOwner = p := funext hp
  rw [withoutOwner, List.countP_map, hsame]

theorem listing_withoutOwner :
    es.withoutOwner.listing p = (es.listing p).map Message.withoutOwner := by
  have hsorted : byTime (withoutOwner (es.filter p)) = (byTime (es.filter p)).withoutOwner :=
    sortBy_map (fun _ _ => rfl) _
  rw [listing, filter_withoutOwner p hp, hsorted, withoutOwner, List.map_map, listing,
    List.map_map]
  rfl

/-- The texts of messages do not tell the owner. -/
theorem sight_listing_withoutOwner :
    (Store.Reply.messages (es.withoutOwner.listing p)).sight =
      (Store.Reply.messages (es.listing p)).sight := by
  rw [listing_withoutOwner p hp, Store.Reply.sight, Store.Reply.sight, List.map_map]
  refine congrArg Store.Sight.texts (List.map_congr_left ?_)
  intro m _
  show m.withoutOwner.toJson = m.toJson
  rw [Message.toJson, Message.toJson, m.toValue_withoutOwner]

end Conditions

/-! ## Calls -/

theorem refusal?_withoutOwner (m : Message) : m.withoutOwner.refusal? = m.refusal? := by
  unfold Message.refusal? Message.withoutOwner
  cases m.attachment <;> rfl

theorem rowIds_withoutOwner (es : Contents) : es.withoutOwner.rowIds = es.rowIds := by
  rw [rowIds, withoutOwner, List.map_map]
  rfl

theorem newEntry_withoutOwner :
    es.withoutOwner.newEntry m.withoutOwner now = (es.newEntry m now).withoutOwner := by
  rw [newEntry, rowIds_withoutOwner]
  rfl

theorem place_withoutOwner (e : Entry) :
    es.withoutOwner.place e.withoutOwner = (es.place e).withoutOwner := by
  have hbefore : es.withoutOwner.filter (fun d => d.rowId < e.rowId) =
      withoutOwner (es.filter fun d => d.rowId < e.rowId) := filter_withoutOwner _ fun _ => rfl
  have hafter : es.withoutOwner.filter (fun d => e.rowId < d.rowId) =
      withoutOwner (es.filter fun d => e.rowId < d.rowId) := filter_withoutOwner _ fun _ => rfl
  show es.withoutOwner.filter (fun d => d.rowId < e.rowId) ++
    e.withoutOwner :: es.withoutOwner.filter (fun d => e.rowId < d.rowId) = _
  rw [hbefore, hafter, place, withoutOwner, withoutOwner, withoutOwner, List.map_append,
    List.map_cons]

theorem add_withoutOwner :
    es.withoutOwner.add m.withoutOwner now = (es.add m now).map withoutOwner := by
  have hid : es.withoutOwner.any (Entry.hasId m.withoutOwner.id) = es.any (Entry.hasId m.id) :=
    any_withoutOwner _ fun _ => rfl
  rw [add, add, refusal?_withoutOwner, hid, newEntry_withoutOwner, place_withoutOwner]
  cases m.refusal? with
  | some e => rfl
  | none =>
      by_cases htaken : es.any (Entry.hasId m.id) = true
      · simp only [htaken, if_true]
        rfl
      · simp only [htaken, Bool.false_eq_true, if_false]
        rfl

theorem after_withoutOwner (es : Contents) (call : Store.Call) :
    es.withoutOwner.after call.withoutOwner = (es.after call).withoutOwner := by
  cases call with
  | add m now =>
      show (es.withoutOwner.add m.withoutOwner now).toOption.getD _ = _
      rw [add_withoutOwner, after]
      cases es.add m now <;> rfl
  | mark id =>
      show (es.map _).map _ = (es.map _).map _
      rw [List.map_map, List.map_map]
      apply List.map_congr_left
      intro e _
      show (if e.hasId id then e.withoutOwner.published else e.withoutOwner) =
        (if e.hasId id then e.published else e).withoutOwner
      split <;> rfl
  | prune olderThan => exact filter_withoutOwner _ fun _ => rfl
  | since _ _ _ | due _ | state _ | count _ | total | topics | size _ _ | expired _ => rfl

/-- Without owners an answer shows the same. -/
theorem shown_answer (es : Contents) (call : Store.Call) :
    call.withoutOwner.shown (es.withoutOwner.answer call.withoutOwner) =
      call.shown (es.answer call) := by
  cases call with
  | add m now =>
      show some (((es.withoutOwner.add m.withoutOwner now).map _).map _) = _
      rw [add_withoutOwner, answer]
      cases es.add m now <;> rfl
  | since topic bound scheduled =>
      show some ((es.withoutOwner.answer (.since topic bound scheduled)).map _) =
        some ((es.answer (.since topic bound scheduled)).map _)
      rw [answer, answer]
      cases bound.timestamp with
      | none => rfl
      | some time =>
          exact congrArg (fun s => some (Except.ok s))
            (sight_listing_withoutOwner (Entry.isSince topic time scheduled) fun _ => rfl)
  | due now =>
      exact congrArg (fun s => some (Except.ok s))
        (sight_listing_withoutOwner (Entry.isDue now) fun _ => rfl)
  | mark id =>
      show (Store.Call.mark id).shown (es.withoutOwner.answer (.mark id)) = _
      rw [answer, answer, any_withoutOwner (Entry.hasId id) fun _ => rfl]
  | state id =>
      show (Store.Call.state id).shown (es.withoutOwner.answer (.state id)) = _
      rw [answer, answer, withoutOwner, List.find?_map, Option.map_map]
      rfl
  | count topic =>
      show (Store.Call.count topic).shown (es.withoutOwner.answer (.count topic)) = _
      rw [answer, answer, countP_withoutOwner (fun e => e.message.topic = topic) fun _ => rfl]
  | total =>
      show Store.Call.total.shown (es.withoutOwner.answer .total) = _
      rw [answer, answer, withoutOwner, List.length_map]
  | topics =>
      show Store.Call.topics.shown (es.withoutOwner.answer .topics) = _
      rw [answer, answer, topics, topics, withoutOwner, sortBy_map (fun _ _ => rfl), List.map_map]
      rfl
  | prune olderThan =>
      show (Store.Call.prune olderThan).shown (es.withoutOwner.answer (.prune olderThan)) = _
      rw [answer, answer, countP_withoutOwner (Entry.isPruned olderThan) fun _ => rfl]
  | expired now =>
      show (Store.Call.expired now).shown (es.withoutOwner.answer (.expired now)) = _
      rw [answer, answer, filter_withoutOwner _ (isExpired_withoutOwner now), withoutOwner,
        sortBy_map fun a b => by rw [expires_withoutOwner, expires_withoutOwner], List.map_map]
      rfl
  | size owner now =>
      show (Store.Call.size owner now).shown _ = (Store.Call.size owner now).shown _
      rw [Store.Call.shown, Store.Call.shown]

/-- What calls show is what they show without owners, by induction on the calls. -/
theorem shown_run (es : Contents) (calls : List Store.Call) :
    List.zipWith Store.Call.shown (calls.map Store.Call.withoutOwner)
        (es.withoutOwner.run (calls.map Store.Call.withoutOwner)).1 =
      List.zipWith Store.Call.shown calls (es.run calls).1 := by
  induction calls generalizing es with
  | nil => rfl
  | cons call calls ih =>
      rw [List.map_cons, run, run, List.zipWith_cons_cons, List.zipWith_cons_cons, shown_answer,
        after_withoutOwner, ih]

end Contents

/-! ## Two stores -/

theorem seen_withoutOwner (calls : List Store.Call) :
    Store.seen (ensureCurrent .granted .empty).database (calls.map Store.Call.withoutOwner) =
      Store.seen (ensureCurrent .granted .empty).database calls := by
  unfold Store.seen
  rw [(represents_fresh.run _).1, (represents_fresh.run calls).1]
  exact Contents.shown_run [] calls

/-- New stores show the same of calls that differ in nothing but the owners of what is
added. -/
theorem seen_eq_of_owners {calls calls' : List Store.Call}
    (h : calls.map Store.Call.withoutOwner = calls'.map Store.Call.withoutOwner) :
    Store.seen (ensureCurrent .granted .empty).database calls =
      Store.seen (ensureCurrent .granted .empty).database calls' := by
  rw [← seen_withoutOwner calls, h, seen_withoutOwner calls']

/-- Calls on a message with a file of some owner. -/
def fileCalls (owner : String) : List Store.Call :=
  [.add ((Message.new "a" 3 "t" "hello").withAttachment
      { name := "f", mimeType := "", size := 5, expires := 9, url := "u", owner }) 4,
    .since "t" .all true, .expired 20, .size "anna" 4]

/-- The owner is told by what anna's files take up, and by nothing else. -/
theorem seen_eq_of_owners_file :
    (fileCalls "anna").map Store.Call.withoutOwner =
        (fileCalls "bert").map Store.Call.withoutOwner ∧
      Store.seen (ensureCurrent .granted .empty).database (fileCalls "anna") =
        Store.seen (ensureCurrent .granted .empty).database (fileCalls "bert") ∧
      (Store.run (ensureCurrent .granted .empty).database (fileCalls "anna")).1 ≠
        (Store.run (ensureCurrent .granted .empty).database (fileCalls "bert")).1 := by
  refine ⟨rfl, seen_eq_of_owners rfl, ?_⟩
  rw [(represents_fresh.run _).1, (represents_fresh.run _).1]
  decide

end MessageCache
