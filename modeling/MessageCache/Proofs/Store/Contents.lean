/-
# The contents of a store — what its calls come down to

A store holds messages, each delivered or not, in the order in which they came.  Every
call has an answer that depends on these alone (`Contents.answer`), and leaves contents
that depend on these alone (`Contents.after`).  No tables, cells, tags as text or flags
for attachments occur here; that a database which stands for some contents answers the
same is shown elsewhere (`Represents`).

The id of a row only says where a further message is put.  That is at the end, as long as
there are greater ids; a store that has used up the greatest one goes back to those that
are free, and then a new message stands before older ones.
-/
import Mathlib.Algebra.GroupWithZero.Nat
import Mathlib.Data.List.Nodup
import Mathlib.Data.List.Perm.Subperm
import MessageCache.Proofs.Table.Transaction
import MessageCache.Store.Call

namespace MessageCache

/-- A stored message: the id of its row, the message, and whether it was delivered. -/
structure Entry where
  rowId : Int
  message : Message
  state : DeliveryState

namespace Entry

/-- A poll of a topic from some time on asks for it. -/
def isSince (topic : String) (time : Int64) (scheduled : Bool) (e : Entry) : Bool :=
  e.message.topic = topic ∧ time ≤ e.message.time ∧ (scheduled ∨ e.state = .published)

def isDue (now : Int64) (e : Entry) : Bool := e.message.time ≤ now ∧ e.state = .scheduled

def isPruned (olderThan : Int64) (e : Entry) : Bool :=
  e.message.time < olderThan ∧ e.state = .published

/-- It has an attachment that counts against an owner. -/
def isCharged (owner : String) (now : Int64) (e : Entry) : Bool :=
  e.message.attachment.any fun a => a.owner = owner ∧ (a.expires = 0 ∨ now ≤ a.expires)

/-- It has an attachment that has expired. -/
def isExpired (now : Int64) (e : Entry) : Bool :=
  e.message.attachment.any fun a => 0 < a.expires ∧ a.expires < now

def size (e : Entry) : Nat := (e.message.attachment.map fun a => a.size.toNat).getD 0

def expires (e : Entry) : Int64 := (e.message.attachment.map (·.expires)).getD 0

def published (e : Entry) : Entry := { e with state := .published }

def hasId (id : String) (e : Entry) : Bool := e.message.id = id

theorem hasId_iff {id : String} {e : Entry} : e.hasId id = true ↔ e.message.id = id :=
  decide_eq_true_iff

theorem isPruned_iff {olderThan : Int64} {e : Entry} :
    e.isPruned olderThan = true ↔ e.message.time < olderThan ∧ e.state = .published :=
  decide_eq_true_iff

end Entry

/-- Why a message is refused by any store. -/
def Message.refusal? (m : Message) : Option StoreError :=
  if m.event ≠ .message then some (.typeMismatch m.event)
  else
    match Tags.encode m.tags with
    | .error tag => some (.invalidTag tag)
    | .ok _ =>
      match m.attachment with
      | none => none
      | some a =>
        if InInt64 a.size.toNat then none else some (.invalidMessage (.attachmentSize a.size))

abbrev Contents := List Entry

namespace Contents

/-- The entries in the order of their times. -/
def byTime (es : Contents) : Contents := sortBy (fun a b => a.message.time ≤ b.message.time) es

/-- The messages of chosen entries, in the order of their times. -/
def listing (p : Entry → Bool) (es : Contents) : List Message :=
  (byTime (es.filter p)).map (·.message)

/-- The entries with one more, put where its row belongs. -/
def place (e : Entry) (es : Contents) : Contents :=
  es.filter (fun d => d.rowId < e.rowId) ++ e :: es.filter fun d => e.rowId < d.rowId

def rowIds (es : Contents) : List Int := es.map (·.rowId)

/-- The entry that a message becomes. -/
def newEntry (es : Contents) (m : Message) (now : Int64) : Entry :=
  { rowId := Table.nextId es.rowIds, message := m, state := .atInsert m.time now }

/-- The contents with one more message, or why it is refused. -/
def add (es : Contents) (m : Message) (now : Int64) : Except StoreError Contents :=
  match m.refusal? with
  | some e => .error e
  | none =>
    if es.any (Entry.hasId m.id) then .error (.duplicateId m.id)
    else .ok (es.place (es.newEntry m now))

/-- Texts without those that equal the one before them. -/
def runs : List String → List String
  | [] => []
  | s :: rest =>
    match runs rest with
    | [] => [s]
    | d :: ds => if s = d then s :: ds else s :: d :: ds

/-- The topics in order. -/
def topics (es : Contents) : List String :=
  runs ((sortBy (fun a b : Entry => Utf8.bytes a.message.topic ≤ Utf8.bytes b.message.topic)
    es).map (·.message.topic))

/-- What the attachments of an owner take up; the sum has to be a stored integer. -/
def charge (es : Contents) (owner : String) (now : Int64) : Except StoreError UInt64 :=
  let total := ((es.filter (Entry.isCharged owner now)).map Entry.size).sum
  if InInt64 total then .ok (UInt64.ofNat total) else .error (.database .integerOverflow)

/-- The answer to a call. -/
def answer (es : Contents) : Store.Call → Except StoreError Store.Reply
  | .add m now => (es.add m now).map fun _ => .stored
  | .since topic bound scheduled =>
    match bound.timestamp with
    | none => .ok (.messages [])
    | some time =>
      .ok (.messages ((byTime (es.filter (Entry.isSince topic time scheduled))).map (·.message)))
  | .due now => .ok (.messages ((byTime (es.filter (Entry.isDue now))).map (·.message)))
  | .mark id => .ok (.marked (es.any (Entry.hasId id)))
  | .state id => .ok (.state ((es.find? (Entry.hasId id)).map (·.state)))
  | .count topic => .ok (.count (es.countP fun e => e.message.topic = topic))
  | .total => .ok (.count es.length)
  | .topics => .ok (.topics (es.topics.map Topic.mk))
  | .prune olderThan => .ok (.pruned (es.countP (Entry.isPruned olderThan)))
  | .size owner now => (es.charge owner now).map .size
  | .expired now =>
    .ok (.ids ((sortBy (fun a b => a.expires ≤ b.expires)
      (es.filter (Entry.isExpired now))).map (·.message.id)))

/-- The contents after a call. -/
def after (es : Contents) : Store.Call → Contents
  | .add m now => (es.add m now).toOption.getD es
  | .mark id => es.map fun e => if e.hasId id then e.published else e
  | .prune olderThan => es.filter fun e => !e.isPruned olderThan
  | _ => es

/-- The answers to calls one after the other, and the contents after the last. -/
def run (es : Contents) : List Store.Call → List (Except StoreError Store.Reply) × Contents
  | [] => ([], es)
  | call :: rest => (es.answer call :: (run (es.after call) rest).1, (run (es.after call) rest).2)

/-- No message is there twice. -/
def Distinct (es : Contents) : Prop := (es.map (·.message.id)).Nodup

end Contents

/-! ## New rows -/

/-- The next id is that of no row, even where the greatest id is used up. -/
theorem Table.nextId_notMem (ids : List Int) : nextId ids ∉ ids := by
  by_cases hlast : lastId ids < greatestId
  · intro hmem
    exact absurd (id_lt_nextId hlast hmem) (Int.lt_irrefl _)
  · rw [nextId, if_neg hlast]
    intro hmem
    cases hfree : (List.range ids.length).find? fun n : Nat => !ids.any fun id => id = n + 1 with
    | some n =>
        simp only [hfree, Option.getD_some] at hmem
        have hnot : ∀ id ∈ ids, ¬ id = n + 1 := by simpa using List.find?_some hfree
        exact hnot _ hmem rfl
    | none =>
        simp only [hfree, Option.getD_none] at hmem
        -- all of the first ids are taken, which are more than there are
        have htaken : ((List.range (ids.length + 1)).map fun n : Nat => (n : Int) + 1) ⊆ ids := by
          intro id hid
          obtain ⟨n, hn, rfl⟩ := List.mem_map.mp hid
          rcases Nat.lt_or_eq_of_le (Nat.le_of_lt_succ (List.mem_range.mp hn)) with hlt | rfl
          · have hany := List.find?_eq_none.mp hfree n (List.mem_range.mpr hlt)
            simpa using hany
          · exact hmem
        have hnodup : ((List.range (ids.length + 1)).map fun n : Nat => (n : Int) + 1).Nodup := by
          refine List.Nodup.map ?_ List.nodup_range
          intro m n h
          simp only at h
          omega
        have hle := (List.Nodup.subperm hnodup htaken).length_le
        rw [List.length_map, List.length_range] at hle
        omega

namespace Contents

variable {es es' : Contents} {e : Entry} {m : Message} {now : Int64}

theorem mem_listing {p : Entry → Bool} :
    m ∈ es.listing p ↔ ∃ e ∈ es, p e = true ∧ e.message = m := by
  simp only [listing, byTime, List.mem_map, mem_sortBy, List.mem_filter, and_assoc]

/-- Around a free id what is not below it is above it. -/
theorem filter_above {α : Type} {key : α → Int} {id : Int} {xs : List α}
    (hfree : ∀ x ∈ xs, key x ≠ id) :
    xs.filter (fun x => id < key x) = xs.filter fun x => !decide (key x < id) := by
  apply List.filter_congr
  intro x hx
  have := hfree x hx
  rw [← decide_not, decide_eq_decide]
  omega

theorem place_perm (hfree : ∀ d ∈ es, d.rowId ≠ e.rowId) : (es.place e).Perm (e :: es) := by
  unfold place
  rw [filter_above hfree]
  exact List.perm_middle.trans ((List.filter_append_perm _ es).cons e)

/-- What is known of contents to which a message was added. -/
theorem add_eq_ok : es.add m now = .ok es' ↔
    m.refusal? = none ∧ (∀ d ∈ es, d.message.id ≠ m.id) ∧ es' = es.place (es.newEntry m now) := by
  unfold add
  cases hrefusal : m.refusal? with
  | some error => simp
  | none =>
      by_cases hany : es.any (Entry.hasId m.id)
      · rw [if_pos hany]
        obtain ⟨d, hd, hid⟩ := List.any_eq_true.mp hany
        exact ⟨fun h => (nomatch h), fun h => absurd (Entry.hasId_iff.mp hid) (h.2.1 d hd)⟩
      · rw [if_neg hany]
        have hall : ∀ d ∈ es, d.message.id ≠ m.id := by
          simpa [Entry.hasId] using hany
        exact ⟨fun h => ⟨rfl, hall, (Except.ok.inj h).symm⟩, fun h => by rw [h.2.2]⟩

theorem newEntry_free : ∀ d ∈ es, d.rowId ≠ (es.newEntry m now).rowId := by
  intro d hd heq
  refine Table.nextId_notMem es.rowIds ?_
  have hmem : d.rowId ∈ es.rowIds := List.mem_map_of_mem hd
  rw [heq] at hmem
  exact hmem

/-- Added to the contents is one entry. -/
theorem perm_of_add (h : es.add m now = .ok es') : es'.Perm (es.newEntry m now :: es) := by
  obtain ⟨-, -, rfl⟩ := add_eq_ok.mp h
  exact place_perm newEntry_free

/-- Marking changes nothing but states. -/
theorem map_after_mark {α : Type} {f : Entry → α} (hf : ∀ e : Entry, f e.published = f e)
    {id : String} : (es.after (.mark id)).map f = es.map f := by
  show (es.map _).map f = _
  rw [List.map_map]
  apply List.map_congr_left
  intro e _
  simp only [Function.comp_apply]
  split
  · exact hf e
  · rfl

/-- What a successful call adds, marks or prunes leaves the messages distinct. -/
theorem Distinct.after (h : es.Distinct) (call : Store.Call) : (es.after call).Distinct := by
  cases call with
  | add m now =>
      show ((es.add m now).toOption.getD es).Distinct
      cases hadd : es.add m now with
      | error error => exact h
      | ok es' =>
          obtain ⟨-, hnew, -⟩ := add_eq_ok.mp hadd
          show (es'.map (·.message.id)).Nodup
          rw [((perm_of_add hadd).map _).nodup_iff, List.map_cons, List.nodup_cons]
          refine ⟨?_, h⟩
          intro hmem
          obtain ⟨d, hd, heq⟩ := List.mem_map.mp hmem
          exact hnew d hd heq
  | mark id =>
      unfold Distinct
      rw [map_after_mark fun _ => rfl]
      exact h
  | prune olderThan => exact List.Nodup.sublist (List.filter_sublist.map _) h
  | since _ _ _ | due _ | state _ | count _ | total | topics | size _ _ | expired _ => exact h

end Contents

end MessageCache
