/-
# Contents that differ in the ids of their rows alone

No answer tells the id of a row, so contents that are `Alike` answer alike.  They also
stay so, as long as each new message is put at the end; and it is, while there are
greater ids than those in use.  `Room k` says that there are for `k` further messages,
whichever messages are pruned in between.
-/
import MessageCache.Proofs.Store.Simulation

namespace MessageCache

/-- The call adds a message, or tries to. -/
def Store.Call.isAdd : Store.Call → Bool
  | .add _ _ => true
  | _ => false

/-- The same message in the same state. -/
def Entry.Alike (e e' : Entry) : Prop := e.message = e'.message ∧ e.state = e'.state

/-- What does not see the id of a row is the same of entries that are alike. -/
theorem Entry.Alike.congr {α : Type} {f : Entry → α}
    (hf : ∀ (e : Entry) (id : Int), f { e with rowId := id } = f e) (e e' : Entry)
    (h : e.Alike e') : f e = f e' := by
  obtain ⟨hmessage, hstate⟩ := h
  have he : e' = { e with rowId := e'.rowId } := by
    rw [hmessage, hstate]
  exact (hf e e'.rowId).symm.trans (congrArg f he.symm)

namespace Contents

/-- The same messages in the same states, in the same order. -/
def Alike (es es' : Contents) : Prop := List.Forall₂ Entry.Alike es es'

/-- There are ids for `k` more rows behind those that are there. -/
structure Room (k : Nat) (es : Contents) : Prop where
  ids : (k : Int) ≤ Table.greatestId
  behind : ∀ e ∈ es, e.rowId + k ≤ Table.greatestId

section Room

variable {es : Contents} {k : Nat}

theorem lastId_mem (ids : List Int) : Table.lastId ids = 0 ∨ Table.lastId ids ∈ ids := by
  cases ids with
  | nil => exact .inl rfl
  | cons n rest =>
      refine .inr ?_
      show rest.foldl max n ∈ n :: rest
      induction rest generalizing n with
      | nil => exact List.mem_cons_self
      | cons m rest ih =>
          rw [List.foldl_cons]
          rcases List.mem_cons.mp (ih (max n m)) with h | h
          · rw [h]
            rcases Int.le_total n m with hle | hle
            · rw [Int.max_eq_right hle]
              exact List.mem_cons_of_mem _ List.mem_cons_self
            · rw [Int.max_eq_left hle]
              exact List.mem_cons_self
          · exact List.mem_cons_of_mem _ (List.mem_cons_of_mem _ h)

/-- While there is room, a new row comes last and the ids go on by one. -/
theorem Room.newEntry (h : Room (k + 1) es) (m : Message) (now : Int64) :
    (∀ e ∈ es, e.rowId < (es.newEntry m now).rowId) ∧
      (es.newEntry m now).rowId + k ≤ Table.greatestId := by
  have hlast : Table.lastId es.rowIds + (k + 1) ≤ Table.greatestId := by
    rcases lastId_mem es.rowIds with hzero | hmem
    · rw [hzero, Int.zero_add]
      exact h.ids
    · obtain ⟨e, he, heq⟩ := List.mem_map.mp hmem
      rw [← heq]
      exact h.behind e he
  have hlt : Table.lastId es.rowIds < Table.greatestId := by omega
  constructor
  · intro e he
    exact Table.id_lt_nextId hlt (List.mem_map_of_mem he)
  · show Table.nextId es.rowIds + k ≤ _
    rw [Table.nextId, if_pos hlt]
    omega

theorem place_of_forall_lt {e : Entry} (h : ∀ d ∈ es, d.rowId < e.rowId) :
    es.place e = es ++ [e] := by
  have hbefore : es.filter (fun d => d.rowId < e.rowId) = es :=
    List.filter_eq_self.mpr fun d hd => decide_eq_true (h d hd)
  have hafter : es.filter (fun d => e.rowId < d.rowId) = [] := by
    rw [List.filter_eq_nil_iff]
    intro d hd
    have := h d hd
    simp only [decide_eq_true_eq]
    omega
  rw [place, hbefore, hafter]

theorem Room.mono {j : Nat} (h : Room k es) (hj : j ≤ k) : Room j es where
  ids := by
    have := h.ids
    omega
  behind := by
    intro e he
    have := h.behind e he
    omega

/-- A message that is added leaves room for one less. -/
theorem Room.add {es' : Contents} {m : Message} {now : Int64} (h : Room (k + 1) es)
    (hadd : es.add m now = .ok es') : es' = es ++ [es.newEntry m now] ∧ Room k es' := by
  obtain ⟨hlt, hnew⟩ := h.newEntry m now
  obtain ⟨-, -, rfl⟩ := add_eq_ok.mp hadd
  rw [place_of_forall_lt hlt]
  refine ⟨rfl, (h.mono (Nat.le_succ k)).ids, ?_⟩
  intro e he
  rcases List.mem_append.mp he with he | he
  · exact (h.mono (Nat.le_succ k)).behind e he
  · rw [List.mem_singleton.mp he]
    exact hnew

/-- Other calls take no room. -/
theorem Room.after (h : Room k es) {call : Store.Call} (hcall : call.isAdd = false) :
    Room k (es.after call) where
  ids := h.ids
  behind := by
    intro e he
    cases call with
    | add m now => cases hcall
    | mark id =>
        obtain ⟨d, hd, rfl⟩ := List.mem_map.mp he
        have hd := h.behind d hd
        split
        · exact hd
        · exact hd
    | prune c => exact h.behind e (List.mem_filter.mp he).1
    | since _ _ _ | due _ | state _ | count _ | total | topics | size _ _ | expired _ =>
        exact h.behind e he

end Room

/-! ## Answers, and what is left -/

section Alike

variable {es es' : Contents}

theorem Alike.byTime (h : es.Alike es') : (byTime es).Alike (byTime es') := by
  refine forall₂_sortBy ?_ h
  rintro a b d e ⟨ha, -⟩ ⟨hb, -⟩
  rw [ha, hb]

/-- Entries that are chosen without a look at the ids of their rows. -/
theorem Alike.filter (h : es.Alike es') {p : Entry → Bool}
    (hp : ∀ (e : Entry) (id : Int), p { e with rowId := id } = p e) :
    Alike (es.filter p) (es'.filter p) :=
  (forall₂_filter (Entry.Alike.congr hp) h).imp fun _ _ h => h.1

theorem Alike.map_eq (h : es.Alike es') {α : Type} {f : Entry → α}
    (hf : ∀ (e : Entry) (id : Int), f { e with rowId := id } = f e) : es.map f = es'.map f :=
  map_eq_of_forall₂ (Entry.Alike.congr hf) h

theorem Alike.any_hasId (h : es.Alike es') (id : String) :
    es.any (Entry.hasId id) = es'.any (Entry.hasId id) :=
  any_eq_of_forall₂ (Entry.Alike.congr fun _ _ => rfl) h

theorem Alike.countP_eq (h : es.Alike es') {p : Entry → Bool}
    (hp : ∀ (e : Entry) (id : Int), p { e with rowId := id } = p e) :
    es.countP p = es'.countP p := countP_eq_of_forall₂ (Entry.Alike.congr hp) h

/-- Answers are alike. -/
theorem Alike.answer (h : es.Alike es') (call : Store.Call) : es.answer call = es'.answer call := by
  cases call with
  | add m now =>
      rw [Contents.answer, Contents.answer, Contents.add, Contents.add, h.any_hasId m.id]
      cases m.refusal? with
      | some e => rfl
      | none =>
          simp only
          split <;> rfl
  | since topic bound scheduled =>
      have hmessages : ∀ time,
          (Contents.byTime (es.filter (Entry.isSince topic time scheduled))).map (·.message) =
            (Contents.byTime (es'.filter (Entry.isSince topic time scheduled))).map (·.message) :=
        fun time => (h.filter fun _ _ => rfl).byTime.map_eq fun _ _ => rfl
      unfold Contents.answer
      simp only [hmessages]
  | due now =>
      have hmessages : (Contents.byTime (es.filter (Entry.isDue now))).map (·.message) =
          (Contents.byTime (es'.filter (Entry.isDue now))).map (·.message) :=
        (h.filter fun _ _ => rfl).byTime.map_eq fun _ _ => rfl
      rw [Contents.answer, Contents.answer, hmessages]
  | mark id => rw [Contents.answer, Contents.answer, h.any_hasId id]
  | state id =>
      have hstate : (es.find? (Entry.hasId id)).map (·.state) =
          (es'.find? (Entry.hasId id)).map (·.state) :=
        find?_eq_of_forall₂ (Entry.Alike.congr fun _ _ => rfl) (fun _ _ h => h.2) h
      rw [Contents.answer, Contents.answer, hstate]
  | count topic => rw [Contents.answer, Contents.answer, h.countP_eq fun _ _ => rfl]
  | total => rw [Contents.answer, Contents.answer, h.length_eq]
  | topics =>
      have hsorted : Alike
          (sortBy (fun a b : Entry => Utf8.bytes a.message.topic ≤ Utf8.bytes b.message.topic) es)
          (sortBy (fun a b : Entry => Utf8.bytes a.message.topic ≤ Utf8.bytes b.message.topic)
            es') := by
        refine forall₂_sortBy ?_ h
        rintro a b d e ⟨ha, -⟩ ⟨hb, -⟩
        rw [ha, hb]
      rw [Contents.answer, Contents.answer, Contents.topics, Contents.topics,
        hsorted.map_eq fun _ _ => rfl]
  | prune olderThan => rw [Contents.answer, Contents.answer, h.countP_eq fun _ _ => rfl]
  | size owner now =>
      have hsizes : (es.filter (Entry.isCharged owner now)).map Entry.size =
          (es'.filter (Entry.isCharged owner now)).map Entry.size :=
        (h.filter fun _ _ => rfl).map_eq fun _ _ => rfl
      have hcharge : es.charge owner now = es'.charge owner now := by
        unfold Contents.charge
        rw [hsizes]
      rw [Contents.answer, Contents.answer, hcharge]
  | expired now =>
      have hsorted : Alike
          (sortBy (fun a b => a.expires ≤ b.expires) (es.filter (Entry.isExpired now)))
          (sortBy (fun a b => a.expires ≤ b.expires) (es'.filter (Entry.isExpired now))) := by
        refine forall₂_sortBy ?_ (h.filter fun _ _ => rfl)
        rintro a b d e ⟨ha, -⟩ ⟨hb, -⟩
        unfold Entry.expires
        rw [ha, hb]
      rw [Contents.answer, Contents.answer, hsorted.map_eq fun _ _ => rfl]

/-- What is left by calls other than additions is alike. -/
theorem Alike.after (h : es.Alike es') {call : Store.Call} (hcall : call.isAdd = false) :
    (es.after call).Alike (es'.after call) := by
  cases call with
  | add m now => cases hcall
  | mark id =>
      show List.Forall₂ _ (es.map _) (es'.map _)
      rw [List.forall₂_map_left_iff, List.forall₂_map_right_iff]
      refine List.Forall₂.imp (fun e e' he => ?_) h
      have hid : e.hasId id = e'.hasId id := Entry.Alike.congr (fun _ _ => rfl) e e' he
      rw [hid]
      split
      · exact ⟨he.1, rfl⟩
      · exact he
  | prune c => exact h.filter fun _ _ => rfl
  | since _ _ _ | due _ | state _ | count _ | total | topics | size _ _ | expired _ => exact h

/-- With room for it, a message is added to both alike. -/
theorem Alike.add {k j : Nat} (h : es.Alike es') (hroom : Room (k + 1) es)
    (hroom' : Room (j + 1) es') (m : Message) (now : Int64) :
    (es.after (.add m now)).Alike (es'.after (.add m now)) ∧
      Room k (es.after (.add m now)) ∧ Room j (es'.after (.add m now)) := by
  rw [Contents.after, Contents.after]
  have hanswer := h.answer (.add m now)
  rw [Contents.answer, Contents.answer] at hanswer
  cases hadd : es.add m now with
  | error e =>
      cases hadd' : es'.add m now with
      | error e' => exact ⟨h, hroom.mono (Nat.le_succ k), hroom'.mono (Nat.le_succ j)⟩
      | ok ds' =>
          rw [hadd, hadd'] at hanswer
          cases hanswer
  | ok ds =>
      cases hadd' : es'.add m now with
      | error e' =>
          rw [hadd, hadd'] at hanswer
          cases hanswer
      | ok ds' =>
          obtain ⟨rfl, hds⟩ := hroom.add hadd
          obtain ⟨rfl, hds'⟩ := hroom'.add hadd'
          exact ⟨List.rel_append h (.cons ⟨rfl, rfl⟩ .nil), hds, hds'⟩

/-- Contents that are alike answer all calls alike, with room for those that add. -/
theorem Alike.run (h : es.Alike es') {calls : List Store.Call}
    (hroom : Room (calls.countP Store.Call.isAdd) es)
    (hroom' : Room (calls.countP Store.Call.isAdd) es') :
    (es.run calls).1 = (es'.run calls).1 := by
  induction calls generalizing es es' with
  | nil => rfl
  | cons call rest ih =>
      rw [List.countP_cons] at hroom hroom'
      show es.answer call :: _ = es'.answer call :: _
      rw [h.answer call]
      congr 1
      cases hcall : call.isAdd with
      | true =>
          rw [hcall, if_pos rfl] at hroom hroom'
          obtain ⟨m, now, rfl⟩ : ∃ m now, call = .add m now := by
            cases call <;> first | exact ⟨_, _, rfl⟩ | cases hcall
          obtain ⟨hafter, hroom, hroom'⟩ := h.add hroom hroom' m now
          exact ih hafter hroom hroom'
      | false =>
          rw [hcall] at hroom hroom'
          exact ih (h.after hcall) (hroom.after hcall) (hroom'.after hcall)

end Alike

/-! ## Contents made by additions -/

/-- A call for each of the entries, at the time that the clock then shows. -/
def adds (now : Entry → Int64) (es : Contents) : List Store.Call :=
  es.map fun e => .add e.message (now e)

/-- The clock is such that the entries come in their states. -/
def Timed (now : Entry → Int64) (es : Contents) : Prop :=
  ∀ e ∈ es, .atInsert e.message.time (now e) = e.state

/-- With room for it, a message that is not refused and not there yet comes last. -/
theorem Room.add_eq {k : Nat} {es : Contents} {m : Message} (h : Room (k + 1) es)
    (hrefusal : m.refusal? = none) (hnew : ∀ d ∈ es, d.message.id ≠ m.id) (now : Int64) :
    es.answer (.add m now) = .ok .stored ∧
      es.after (.add m now) = es ++ [es.newEntry m now] ∧ Room k (es ++ [es.newEntry m now]) := by
  have hadd : es.add m now = .ok (es.place (es.newEntry m now)) :=
    add_eq_ok.mpr ⟨hrefusal, hnew, rfl⟩
  obtain ⟨hplace, hroom⟩ := h.add hadd
  rw [hplace] at hadd hroom
  refine ⟨?_, ?_, hroom⟩
  · rw [Contents.answer, hadd]
    rfl
  · rw [Contents.after, hadd]
    rfl

/-- Where there is room for them, messages that no store refuses are all stored. -/
theorem run_adds {k : Nat} {now : Entry → Int64} {es ds : Contents}
    (hroom : Room (k + es.length) ds) (hdistinct : Distinct (ds ++ es))
    (hrefusal : ∀ e ∈ es, e.message.refusal? = none) (hnow : Timed now es) :
    (ds.run (adds now es)).1 = es.map (fun _ => .ok .stored) ∧
      ∃ es', es'.Alike es ∧ (ds.run (adds now es)).2 = ds ++ es' ∧ Room k (ds ++ es') := by
  induction es generalizing ds with
  | nil =>
      refine ⟨rfl, [], .nil, (List.append_nil ds).symm, ?_⟩
      rw [List.append_nil]
      exact hroom
  | cons e es ih =>
      obtain ⟨hclock, hnow⟩ := List.forall_mem_cons.mp hnow
      obtain ⟨hmessage, hrefusal⟩ := List.forall_mem_cons.mp hrefusal
      have hnew : ∀ d ∈ ds, d.message.id ≠ e.message.id := by
        unfold Distinct at hdistinct
        rw [List.map_append, List.nodup_append] at hdistinct
        intro d hd
        exact hdistinct.2.2 _ (List.mem_map_of_mem hd) _ List.mem_cons_self
      have halike : (ds.newEntry e.message (now e)).Alike e := ⟨rfl, hclock⟩
      obtain ⟨hanswer, hafter, hroom⟩ := Room.add_eq hroom hmessage hnew (now e)
      have hdistinct' : Distinct ((ds ++ [ds.newEntry e.message (now e)]) ++ es) := by
        unfold Distinct at hdistinct ⊢
        rw [List.map_append] at hdistinct
        rw [List.append_assoc, List.map_append]
        exact hdistinct
      obtain ⟨hanswers, es', hes', hrun, hroom'⟩ := ih hroom hdistinct' hrefusal hnow
      refine ⟨?_, _ :: es', .cons halike hes', ?_, ?_⟩
      · show ds.answer (.add e.message (now e)) :: _ = _
        rw [hanswer, hafter]
        exact congrArg _ hanswers
      · show (run (ds.after (.add e.message (now e))) (adds now es)).2 = _
        rw [hafter, hrun, List.append_assoc]
        rfl
      · rw [List.append_assoc] at hroom'
        exact hroom'

end Contents

/-- A new store to which messages were added, with room for more of them. -/
theorem represents_adds {k : Nat} {now : Entry → Int64} {es : Contents}
    (hlength : (es.length : Int) + k ≤ Table.greatestId) (hdistinct : es.Distinct)
    (hrefusal : ∀ e ∈ es, e.message.refusal? = none) (hnow : Contents.Timed now es) :
    ∃ fresh es', Store.run (ensureCurrent .granted .empty).database (Contents.adds now es) =
        (es.map fun _ => .ok .stored, fresh) ∧
      Represents fresh es' ∧ es'.Alike es ∧ Contents.Room k es' := by
  have hempty : Contents.Room (k + es.length) [] := ⟨by omega, fun e he => nomatch he⟩
  obtain ⟨hanswers, es', halike, hes', hroom⟩ :=
    Contents.run_adds hempty hdistinct hrefusal hnow
  rw [List.nil_append] at hes' hroom
  obtain ⟨hrun, hfresh⟩ := represents_fresh.run (Contents.adds now es)
  rw [hes'] at hfresh
  exact ⟨_, es', Prod.ext (hrun.trans hanswers) rfl, hfresh, halike, hroom⟩

end MessageCache
