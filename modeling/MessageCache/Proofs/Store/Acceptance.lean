/-
# What a store takes, and why it refuses the rest

Four things can be wrong with a message, in any combination, and the first of them is the
answer:

    1. it is an event of another kind          `typeMismatch`
    2. a tag has no stored form                `invalidTag`, of the first such tag
    3. the attachment is too large             `invalidMessage`
    4. a stored message has its id             `duplicateId`

The first three are the message's own (`Message.Unfit`); the last is found when everything
is encoded already, and depends on nothing but the id of what is stored (`Store.Refuses`).
A message without any of them is taken.  Then the table has one row more and is otherwise
as it was (`Store.AddsRow`); a refusal leaves the database as it was.
-/
import MessageCache.Proofs.Store.Kept
import MessageCache.Proofs.Store.RoundTrip

namespace MessageCache

/-! ## Messages that no store takes -/

/-- Why no store takes the message: the first cause that applies. -/
inductive Message.Unfit (m : Message) : StoreError → Prop where
  | event : m.event ≠ .message → m.Unfit (.typeMismatch m.event)
  | tag {before : List String} {bad : String} {rest : List String} : m.event = .message →
      m.tags = before ++ bad :: rest → (∀ tag ∈ before, Tags.Storable tag) →
      ¬ Tags.Storable bad → m.Unfit (.invalidTag bad)
  | size {a : Attachment} : m.event = .message → (∀ tag ∈ m.tags, Tags.Storable tag) →
      m.attachment = some a → ¬ InInt64 a.size.toNat →
      m.Unfit (.invalidMessage (.attachmentSize a.size))

section Unfit

variable {m : Message} {e : StoreError}

theorem Message.unfit_of_refusal? (h : m.refusal? = some e) : m.Unfit e := by
  unfold refusal? at h
  split at h
  · rename_i hevent
    cases h
    exact .event hevent
  · rename_i hevent
    have hevent : m.event = .message := not_not.mp hevent
    cases htags : Tags.encode m.tags with
    | error bad =>
        rw [htags] at h
        cases h
        obtain ⟨before, rest, hsplit, hbefore, hbad⟩ := Tags.encode_eq_error.mp htags
        exact .tag hevent hsplit hbefore hbad
    | ok stored =>
        rw [htags] at h
        cases ha : m.attachment with
        | none =>
            rw [ha] at h
            cases h
        | some a =>
            simp only [ha] at h
            split at h
            · cases h
            · rename_i hsize
              cases h
              exact .size hevent (Tags.encode_eq_ok.mp htags).1 ha hsize

theorem Message.refusal?_eq_some : m.refusal? = some e ↔ m.Unfit e := by
  refine ⟨unfit_of_refusal?, ?_⟩
  intro h
  unfold refusal?
  cases h with
  | event hevent => exact if_pos hevent
  | tag hevent hsplit hbefore hbad =>
      rw [if_neg (not_not_intro hevent), Tags.encode_eq_error.mpr ⟨_, _, hsplit, hbefore, hbad⟩]
  | size hevent htags ha hsize =>
      rw [if_neg (not_not_intro hevent), Tags.encode_eq_ok.mpr ⟨htags, rfl⟩, ha]
      exact if_neg hsize

end Unfit

/-! ## Refusals -/

/-- Why a store that keeps these messages refuses one more: the first cause that applies. -/
inductive Store.Refuses (kept : List Kept) (m : Message) : StoreError → Prop where
  | unfit {e : StoreError} : m.Unfit e → Refuses kept m e
  | duplicate : m.IsStorable → (∃ k ∈ kept, k.1.id = m.id) → Refuses kept m (.duplicateId m.id)

namespace Contents

variable {es : Contents} {m : Message} {now : Int64} {e : StoreError}

theorem exists_kept_id {id : String} :
    (∃ k ∈ es.kept, k.1.id = id) ↔ ∃ d ∈ es, d.message.id = id := by
  constructor
  · rintro ⟨k, hk, hid⟩
    obtain ⟨d, hd, rfl⟩ := List.mem_map.mp hk
    exact ⟨d, hd, hid⟩
  · rintro ⟨d, hd, hid⟩
    exact ⟨_, List.mem_map_of_mem hd, hid⟩

theorem add_eq_error : es.add m now = .error e ↔ Store.Refuses es.kept m e := by
  constructor
  · intro h
    unfold add at h
    cases hrefusal : m.refusal? with
    | some cause =>
        simp only [hrefusal] at h
        cases h
        exact .unfit (Message.refusal?_eq_some.mp hrefusal)
    | none =>
        simp only [hrefusal] at h
        split at h
        · rename_i hany
          cases h
          obtain ⟨d, hd, hid⟩ := List.any_eq_true.mp hany
          exact .duplicate (Message.refusal?_eq_none.mp hrefusal)
            (exists_kept_id.mpr ⟨d, hd, Entry.hasId_iff.mp hid⟩)
        · cases h
  · intro h
    unfold add
    cases h with
    | unfit hunfit => rw [Message.refusal?_eq_some.mpr hunfit]
    | duplicate hstorable htaken =>
        obtain ⟨d, hd, hid⟩ := exists_kept_id.mp htaken
        rw [Message.refusal?_eq_none.mpr hstorable]
        exact if_pos (List.any_eq_true.mpr ⟨d, hd, Entry.hasId_iff.mpr hid⟩)

theorem answer_add_eq_error : es.answer (.add m now) = .error e ↔ Store.Refuses es.kept m e := by
  rw [← add_eq_error, answer]
  cases es.add m now with
  | ok es' =>
      refine iff_of_false ?_ ?_
      · intro h
        cases h
      · intro h
        cases h
  | error cause =>
      constructor
      · intro h
        cases h
        rfl
      · intro h
        cases h
        rfl

end Contents

/-! ## One row more -/

namespace Store

/-- The table of messages has one row more, which reads as this message in this state, and
nothing else is changed. -/
def AddsRow (db after : Database) (k : Kept) : Prop :=
  ∃ t before r rest, db.table? messagesTable = some t ∧ t.rows = before ++ rest ∧
    r.Reads t k ∧ after = db.setTable messagesTable { t with rows := before ++ r :: rest }

/-- What becomes of a message that is to be added to a store which keeps these. -/
structure DecidesAdd (db : Database) (kept : List Kept) (m : Message) (now : Int64) : Prop where
  taken : ((Call.add m now).run db).1 = .ok .stored ↔
    m.IsStorable ∧ ∀ k ∈ kept, k.1.id ≠ m.id
  refused : ∀ e, ((Call.add m now).run db).1 = .error e ↔ Refuses kept m e
  answered : ((Call.add m now).run db).1 = .ok .stored ∨
    ∃ e, ((Call.add m now).run db).1 = .error e
  /-- The new message is published iff its time has come; before and after it everything is
  kept as it was. -/
  added : ((Call.add m now).run db).1 = .ok .stored →
    ∃ s, (s = .published ↔ m.time ≤ now) ∧ AddsRow db ((Call.add m now).run db).2 (m, s) ∧
      ∃ before rest, kept = before ++ rest ∧
        Keeps ((Call.add m now).run db).2 (before ++ (m, s) :: rest)
  unchanged : ∀ e, ((Call.add m now).run db).1 = .error e → ((Call.add m now).run db).2 = db

/-- Around the new row all rows are read as before. -/
theorem AddsRow.keeps {db after : Database} {k : Kept} {kept : List Kept}
    (h : AddsRow db after k) (hkept : Keeps db kept) :
    ∃ before rest, kept = before ++ rest ∧ Keeps after (before ++ k :: rest) := by
  obtain ⟨t, before, r, rest, ht, hrows, hr, rfl⟩ := h
  obtain ⟨t', ht', hreads⟩ := hkept
  obtain rfl : t = t' := Option.some.inj (ht.symm.trans ht')
  have hfirst := List.forall₂_take before.length hreads
  have hsecond := List.forall₂_drop before.length hreads
  rw [hrows, List.take_left] at hfirst
  rw [hrows, List.drop_left] at hsecond
  refine ⟨_, _, (List.take_append_drop before.length kept).symm, _,
    Database.table?_setTable_self db messagesTable _, ?_⟩
  -- the columns are the same, so that a row reads as it did
  have hsame : ∀ (s : Row) (l : Kept), s.Reads t l →
      s.Reads { t with rows := before ++ r :: rest } l := fun _ _ hl => ⟨hl.message, hl.state⟩
  exact List.rel_append (hfirst.imp hsame) (.cons (hsame r k hr) (hsecond.imp hsame))

end Store

section Deciding

variable {db : Database} {es : Contents} {m : Message} {now : Int64}

/-- A message that is taken becomes one row, before and after which the others stand. -/
theorem Represents.addsRow (h : Represents db es) (hordered : es.Ordered)
    (hstored : ((Store.Call.add m now).run db).1 = .ok .stored) :
    Store.AddsRow db ((Store.Call.add m now).run db).2 (m, .atInsert m.time now) := by
  obtain ⟨t, ht, hcurrent, hrows⟩ := h.exists_table
  rw [Store.Call.run] at hstored ⊢
  rcases add_eq ht hcurrent hrows m now with ⟨error, -, hadd⟩ | ⟨r, hr, -, hadd⟩
  · rw [hadd] at hstored
    cases hstored
  · have hids : t.rows.map (·.id) = es.rowIds := rowIds_eq hrows
    have hfree : ∀ d ∈ t.rows, d.id ≠ r.id := by
      intro d hd hid
      refine Table.nextId_notMem es.rowIds ?_
      have hmem : d.id ∈ t.rows.map (·.id) := List.mem_map_of_mem hd
      rw [hids, hid, hr.rowId] at hmem
      exact hmem
    have hsplit := Contents.filter_append_filter (hids ▸ hordered) hfree
    refine ⟨t, _, r, _, ht, hsplit.symm, ⟨hr.readMessage hcurrent, hr.published⟩, ?_⟩
    rw [hadd]
    rfl

theorem Represents.decidesAdd (h : Represents db es) (hordered : es.Ordered) (m : Message)
    (now : Int64) : Store.DecidesAdd db es.kept m now := by
  obtain ⟨after, hrun, -⟩ := h.call (.add m now)
  have hanswer : ((Store.Call.add m now).run db).1 = es.answer (.add m now) := by rw [hrun]
  constructor
  case taken =>
    have hfree : (∀ k ∈ es.kept, k.1.id ≠ m.id) ↔ ∀ e ∈ es, e.message.id ≠ m.id := by
      simp only [Contents.kept, List.forall_mem_map]
    rw [hanswer, hfree]
    exact Contents.answer_add_eq_stored
  case refused =>
    intro e
    rw [hanswer]
    exact Contents.answer_add_eq_error
  case answered =>
    rw [hanswer, Contents.answer]
    cases es.add m now with
    | ok es' => exact .inl rfl
    | error e => exact .inr ⟨e, rfl⟩
  case added =>
    intro hstored
    have hrow := h.addsRow hordered hstored
    exact ⟨_, atInsert_eq_published, hrow, hrow.keeps h.keeps⟩
  case unchanged => exact fun e he => Store.Call.run_of_error he

end Deciding

/-- Whatever was called before, a message is taken as one row more iff it is storable and
its id is free, and is refused for the first cause otherwise, which changes nothing. -/
theorem decidesAdd_of_calls (calls : List Store.Call) :
    ∃ kept, (∀ kept', Store.Keeps (Store.after calls) kept' ↔ kept' = kept) ∧
      ∀ m now, Store.DecidesAdd (Store.after calls) kept m now := by
  have hcontents := represents_after calls
  refine ⟨_, fun _ => hcontents.keeps.iff_eq, ?_⟩
  exact hcontents.decidesAdd (Contents.ordered_run calls)

end MessageCache
