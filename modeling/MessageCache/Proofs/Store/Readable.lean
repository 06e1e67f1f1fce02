/-
# Which reading calls are answered

A message is checked when it is added, and by itself: what is in its cells can be read
again, and the size of its attachment is a stored integer.  So no reading call fails for
what some message holds.  But the sizes of all attachments that are charged to an owner
are added up as stored integers too, and nothing limits how many of them there are:

    every reading call but `size` is answered
    `size` is answered    iff    what is charged to the owner can be stored

As time goes by less is charged, so that the sizes of an owner are all answered iff the
attachments of the owner can be stored together, expired or not (`readable_iff`).
-/
import Mathlib.Algebra.Order.BigOperators.Group.List
import Mathlib.Algebra.Order.Group.Nat
import MessageCache.Proofs.Store.LifeCycle

namespace MessageCache

/-! ## What is charged and what is owned -/

/-- It has an attachment of the owner, which may have expired. -/
def Entry.isOwned (owner : String) (e : Entry) : Bool :=
  e.message.attachment.any fun a => a.owner = owner

theorem Entry.isOwned_of_isCharged {owner : String} {now : Int64} {e : Entry}
    (h : e.isCharged owner now = true) : e.isOwned owner = true := by
  unfold isCharged at h
  unfold isOwned
  cases ha : e.message.attachment with
  | none =>
      rw [ha] at h
      cases h
  | some a =>
      rw [ha, Option.any_some, decide_eq_true_eq] at h
      rw [Option.any_some, decide_eq_true_eq]
      exact h.1

namespace Contents

variable {es : Contents} {owner : String} {now : Int64} {call : Store.Call} {e : StoreError}

/-- What is charged to an owner. -/
def charged (es : Contents) (owner : String) (now : Int64) : Nat :=
  ((es.filter (Entry.isCharged owner now)).map Entry.size).sum

/-- What the attachments of an owner take up together. -/
def owned (es : Contents) (owner : String) : Nat :=
  ((es.filter (Entry.isOwned owner)).map Entry.size).sum

theorem charged_le_owned (es : Contents) (owner : String) (now : Int64) :
    es.charged owner now ≤ es.owned owner := by
  have hsublist : (es.filter (Entry.isCharged owner now)).Sublist
      (es.filter (Entry.isOwned owner)) :=
    List.monotone_filter_right es fun _ h => Entry.isOwned_of_isCharged h
  exact (hsublist.map Entry.size).sum_le_sum fun _ _ => Nat.zero_le _

/-- At the beginning of time nothing has expired. -/
theorem charged_minValue (es : Contents) (owner : String) :
    es.charged owner Int64.minValue = es.owned owner := by
  have hcharged : Entry.isCharged owner Int64.minValue = Entry.isOwned owner := by
    funext e
    unfold Entry.isCharged Entry.isOwned
    simp [Int64.minValue_le]
  rw [charged, owned, hcharged]

theorem charge_eq_error : es.charge owner now = .error e ↔
    e = .database .integerOverflow ∧ ¬ InInt64 (es.charged owner now) := by
  unfold charge
  show (if InInt64 (es.charged owner now) then _ else _) = _ ↔ _
  split
  · rename_i h
    refine iff_of_false ?_ fun hnot => hnot.2 h
    intro he
    cases he
  · rename_i h
    exact ⟨fun he => ⟨(Except.error.inj he).symm, h⟩, fun he => he.1 ▸ rfl⟩

theorem charge_eq_ok {n : UInt64} : es.charge owner now = .ok n ↔
    InInt64 (es.charged owner now) ∧ n.toNat = es.charged owner now := by
  unfold charge
  show (if InInt64 (es.charged owner now) then _ else _) = _ ↔ _
  split
  · rename_i h
    have hlt := h.2
    have htotal : (UInt64.ofNat (es.charged owner now)).toNat = es.charged owner now := by
      rw [UInt64.toNat_ofNat', Nat.mod_eq_of_lt]
      omega
    rw [← htotal, UInt64.toNat_inj, htotal]
    exact ⟨fun hn => ⟨h, (Except.ok.inj hn).symm⟩, fun hn => congrArg Except.ok hn.2.symm⟩
  · rename_i h
    refine iff_of_false ?_ fun hnot => h hnot.1
    intro hn
    cases hn

/-- The only reading call that can fail is a sum. -/
theorem answer_eq_error (hread : call.writes = false) : es.answer call = .error e ↔
    ∃ owner now, call = .size owner now ∧ e = .database .integerOverflow ∧
      ¬ InInt64 (es.charged owner now) := by
  cases call with
  | size owner now =>
      have hanswer : es.answer (.size owner now) = .error e ↔ es.charge owner now = .error e := by
        rw [answer]
        cases es.charge owner now <;> simp [Except.map]
      rw [hanswer, charge_eq_error]
      constructor
      · rintro ⟨rfl, hlarge⟩
        exact ⟨owner, now, rfl, rfl, hlarge⟩
      · rintro ⟨_, _, h, he, hlarge⟩
        cases h
        exact ⟨he, hlarge⟩
  | add m now | mark id | prune olderThan => cases hread
  | since topic bound scheduled =>
      refine iff_of_false ?_ ?_
      · intro h
        rw [answer] at h
        split at h <;> cases h
      · rintro ⟨_, _, h, -⟩
        cases h
  | due now | state id | count topic | total | topics | expired now =>
      refine iff_of_false ?_ ?_
      · intro h
        cases h
      · rintro ⟨_, _, h, -⟩
        cases h

end Contents

/-! ## Reading calls -/

/-- Every reading call is answered. -/
def Store.Readable (db : Database) : Prop :=
  ∀ call : Store.Call, call.writes = false → ∃ reply, (call.run db).1 = .ok reply

section Answers

variable {db : Database} {es : Contents}

/-- In a database that represents contents only the sizes can fail. -/
theorem Represents.run_eq_error (h : Represents db es) {call : Store.Call}
    (hread : call.writes = false) {e : StoreError} : (call.run db).1 = .error e ↔
      ∃ owner now, call = .size owner now ∧ e = .database .integerOverflow ∧
        ¬ InInt64 (es.charged owner now) := by
  obtain ⟨after, hrun, -⟩ := h.call call
  rw [hrun]
  exact Contents.answer_eq_error hread

theorem Represents.readable_iff_owned (h : Represents db es) :
    Store.Readable db ↔ ∀ owner, InInt64 (es.owned owner) := by
  constructor
  · intro hreadable owner
    obtain ⟨reply, hreply⟩ := hreadable (.size owner Int64.minValue) rfl
    by_contra hlarge
    rw [← es.charged_minValue] at hlarge
    have herror : ((Store.Call.size owner Int64.minValue).run db).1 =
        .error (.database .integerOverflow) :=
      (h.run_eq_error rfl).mpr ⟨_, _, rfl, rfl, hlarge⟩
    cases hreply.symm.trans herror
  · intro howned call hread
    cases hrun : (call.run db).1 with
    | ok reply => exact ⟨reply, rfl⟩
    | error e =>
        obtain ⟨owner, now, -, -, hlarge⟩ := (h.run_eq_error hread).mp hrun
        have hle := es.charged_le_owned owner now
        have := howned owner
        unfold InInt64 at hlarge this
        omega

/-- After any calls on a new store every reading call is answered iff the attachments of
each owner can be stored together; and if one is not answered, it is for such a sum. -/
theorem readable_iff (calls : List Store.Call) :
    (Store.Readable (Store.after calls) ↔
        ∀ owner, InInt64 ((Contents.run [] calls).2.owned owner)) ∧
      ∀ (call : Store.Call) e, call.writes = false → (call.run (Store.after calls)).1 = .error e →
        ∃ owner now, call = .size owner now ∧ e = .database .integerOverflow ∧
          ¬ InInt64 ((Contents.run [] calls).2.charged owner now) := by
  have hafter := (represents_fresh.run calls).2
  exact ⟨hafter.readable_iff_owned, fun call e hread => (hafter.run_eq_error hread).mp⟩

end Answers

/-! ## Two attachments that are too large together -/

/-- A message with an attachment of the greatest size. -/
def largest (id : String) : Message :=
  (Message.new id 5 "t" "").withAttachment
    { name := "n", mimeType := "", size := 0x7FFFFFFFFFFFFFFF, expires := 0, url := "u"
      owner := "o" }

/-- Both of them are stored, and what their owner is charged cannot be asked for. -/
theorem not_readable_largest :
    (Store.run (ensureCurrent .granted .empty).database
        [.add (largest "a") 9, .add (largest "b") 9]).1 = [.ok .stored, .ok .stored] ∧
      ((Store.Call.size "o" 0).run
        (Store.after [.add (largest "a") 9, .add (largest "b") 9])).1 =
          .error (.database .integerOverflow) ∧
      ¬ Store.Readable (Store.after [.add (largest "a") 9, .add (largest "b") 9]) := by
  have hrun := represents_fresh.run [.add (largest "a") 9, .add (largest "b") 9]
  have herror : ((Store.Call.size "o" 0).run
      (Store.after [.add (largest "a") 9, .add (largest "b") 9])).1 =
        .error (.database .integerOverflow) := by
    refine (hrun.2.run_eq_error rfl).mpr ⟨_, _, rfl, rfl, ?_⟩
    decide
  refine ⟨hrun.1.trans (by decide), herror, ?_⟩
  intro hreadable
  obtain ⟨reply, hreply⟩ := hreadable (.size "o" 0) rfl
  cases hreply.symm.trans herror

end MessageCache
