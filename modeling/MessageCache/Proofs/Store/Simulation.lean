/-
# A database that represents contents answers as they do

`Represents db es`: the table of messages has the current columns, and its rows hold the
entries one by one.  Then every call gives the answer of the contents, errors included,
and the database afterwards represents the contents afterwards:

    Represents db es   ⟹   call.run db = (es.answer call, after),  Represents after (es.after call)

(`Represents.call`), and so for calls one after the other (`Represents.run`).  A
condition means the same of a row and of the entry that it holds; from that each read
follows by the laws about lists that agree one by one.
-/
import MessageCache.Proofs.Store.Row
import MessageCache.Proofs.Table.Sum
import MessageCache.Schema.Upgrade

namespace MessageCache

/-- The table of messages has the current columns, and its rows hold the entries. -/
structure Represents (db : Database) (es : Contents) : Prop where
  exists_table : ∃ t, db.table? messagesTable = some t ∧ t.IsCurrent ∧
    List.Forall₂ Row.Holds t.rows es
  distinct : es.Distinct

/-! ## Conditions -/

theorem Comparison.eq_holds_ofBool (b c : Bool) :
    eq.holds (.ofBool b) (.ofBool c) = decide (b = c) := by
  unfold Cell.ofBool
  rw [holds_integer]
  cases b <;> cases c <;> rfl

section Conditions

variable {t : Table} {r : Row} {e : Entry}

theorem Row.Holds.published_eq (ht : t.IsCurrent) (h : r.Holds e) :
    (Condition.compare "published" .eq (.integer 1)).holds t r = decide (e.state = .published) := by
  rw [ht.holds_integer (by decide), h.published]
  refine (Comparison.eq_holds_ofBool _ true).trans ?_
  cases e.state <;> rfl

theorem Row.Holds.scheduled_eq (ht : t.IsCurrent) (h : r.Holds e) :
    (Condition.compare "published" .eq (.integer 0)).holds t r = decide (e.state = .scheduled) := by
  rw [ht.holds_integer (by decide), h.published]
  refine (Comparison.eq_holds_ofBool _ false).trans ?_
  cases e.state <;> rfl

theorem Row.Holds.present_eq (ht : t.IsCurrent) (h : r.Holds e) :
    (Condition.compare "attachment_present" .eq (.integer 1)).holds t r =
      e.message.attachment.isSome := by
  rw [ht.holds_integer (by decide), h.present]
  refine (Comparison.eq_holds_ofBool _ true).trans ?_
  cases e.message.attachment <;> rfl

theorem Row.Holds.idCondition (ht : t.IsCurrent) (h : r.Holds e) (id : String) :
    (Store.idCondition id).holds t r = e.hasId id := by
  unfold Store.idCondition
  rw [ht.holds_text (by decide), h.id, Comparison.eq_holds_ofString]
  rfl

theorem Row.Holds.topicCondition (ht : t.IsCurrent) (h : r.Holds e) (topic : String) :
    (Condition.compare "topic" .eq (.ofString topic)).holds t r =
      decide (e.message.topic = topic) := by
  rw [ht.holds_text (by decide), h.topic, Comparison.eq_holds_ofString]

theorem Row.Holds.sinceCondition (ht : t.IsCurrent) (h : r.Holds e) (topic : String)
    (time : Int64) (scheduled : Bool) :
    (Store.sinceCondition topic time scheduled).holds t r = e.isSince topic time scheduled := by
  have htime := ht.holds_integer (r := r) (by decide : Layout.IsInteger "time") .ge time
  rw [h.time, Comparison.holds_integer] at htime
  cases scheduled with
  | false =>
      simp only [Store.sinceCondition, Bool.false_eq_true, if_false, Condition.holds.eq_3,
        h.topicCondition ht, h.published_eq ht, htime]
      simp [Entry.isSince, Bool.decide_and, Bool.and_assoc]
  | true =>
      simp only [Store.sinceCondition, if_true, Condition.holds.eq_3, h.topicCondition ht, htime]
      simp [Entry.isSince, Bool.decide_and]

theorem Row.Holds.dueCondition (ht : t.IsCurrent) (h : r.Holds e) (now : Int64) :
    (Store.dueCondition now).holds t r = e.isDue now := by
  have htime := ht.holds_integer (r := r) (by decide : Layout.IsInteger "time") .le now
  rw [h.time, Comparison.holds_integer] at htime
  simp only [Store.dueCondition, Condition.holds.eq_3, h.scheduled_eq ht, htime]
  simp [Entry.isDue, Bool.decide_and]

theorem Row.Holds.pruneCondition (ht : t.IsCurrent) (h : r.Holds e) (olderThan : Int64) :
    (Store.pruneCondition olderThan).holds t r = e.isPruned olderThan := by
  have htime := ht.holds_integer (r := r) (by decide : Layout.IsInteger "time") .lt olderThan
  rw [h.time, Comparison.holds_integer] at htime
  simp only [Store.pruneCondition, Condition.holds.eq_3, h.published_eq ht, htime]
  simp [Entry.isPruned, Bool.decide_and]

/-- What is left of an attachment is not charged. -/
theorem Row.Holds.chargedCondition (ht : t.IsCurrent) (h : r.Holds e) (owner : String)
    (now : Int64) :
    (Store.chargedCondition owner now).holds t r = e.isCharged owner now := by
  obtain ⟨a, size, ha, hattachment, -⟩ := h.attachment_eq
  have hpresent := h.present_eq ht
  have howner := ht.holds_text (r := r) (by decide : Layout.IsText "attachment_owner") .eq owner
  have hnever := ht.holds_integer (r := r) (by decide : Layout.IsInteger "attachment_expires") .eq 0
  have hlater :=
    ht.holds_integer (r := r) (by decide : Layout.IsInteger "attachment_expires") .ge now
  rw [ha.owner, Comparison.eq_holds_ofString] at howner
  rw [ha.expires, Comparison.holds_integer] at hnever hlater
  unfold Entry.isCharged
  simp only [Store.chargedCondition, Condition.holds.eq_3, Condition.holds.eq_4, hpresent, howner,
    hnever, hlater]
  rw [hattachment]
  cases e.message.attachment with
  | none => rfl
  | some b => simp [Bool.decide_and, Bool.decide_or]

theorem Row.Holds.expiredCondition (ht : t.IsCurrent) (h : r.Holds e) (now : Int64) :
    (Store.expiredCondition now).holds t r = e.isExpired now := by
  obtain ⟨a, size, ha, hattachment, -⟩ := h.attachment_eq
  have hpresent := h.present_eq ht
  have hsome := ht.holds_integer (r := r) (by decide : Layout.IsInteger "attachment_expires") .gt 0
  have hearlier :=
    ht.holds_integer (r := r) (by decide : Layout.IsInteger "attachment_expires") .lt now
  rw [ha.expires, Comparison.holds_integer] at hsome hearlier
  unfold Entry.isExpired
  simp only [Store.expiredCondition, Condition.holds.eq_3, hpresent, hsome, hearlier]
  rw [hattachment]
  cases e.message.attachment with
  | none => rfl
  | some b => simp [Bool.decide_and]

end Conditions

/-! ## Reading -/

theorem readRows_eq {α β : Type} {read : ResultRow → Except ReadFault α} {f : β → α}
    {rows : List ResultRow} {ys : List β}
    (h : List.Forall₂ (fun row y => read row = .ok (f y)) rows ys) :
    Store.readRows read rows = .ok (ys.map f) := by
  induction h with
  | nil => rfl
  | cons hrow _ ih =>
      unfold Store.readRows
      rw [hrow, ih]
      rfl

theorem readIds_eq {β : Type} {f : β → String} {rows : List ResultRow} {ys : List β}
    (h : List.Forall₂ (fun row y => ResultRow.text row 0 = .ok (f y)) rows ys) :
    Store.readIds rows = .ok (ys.map f) := by
  induction h with
  | nil => rfl
  | cons hrow _ ih =>
      unfold Store.readIds
      rw [hrow, ih]
      rfl

/-- The columns that a condition names are there. -/
def Condition.IsKnown (cond : Condition) : Prop :=
  ∀ name ∈ cond.columns, nameKey name ∈ Layout.releasedNames Layout.currentVersion

instance (cond : Condition) : Decidable cond.IsKnown := by
  unfold Condition.IsKnown
  infer_instance

section Reads

variable {db : Database} {t : Table} {es : Contents} {cond : Condition} {p : Entry → Bool}

/-- All that is asked for with a message is there. -/
theorem Condition.IsKnown.missing?_eq_none (hknown : cond.IsKnown) (hcurrent : t.IsCurrent) :
    t.missing? (messageColumns ++ cond.columns ++ (some "time").toList) = none := by
  refine hcurrent.missing?_eq_none ?_
  intro name hname
  rcases List.mem_append.mp hname with hname | hname
  · rcases List.mem_append.mp hname with hname | hname
    · exact (by decide : ∀ name ∈ messageColumns,
        nameKey name ∈ Layout.releasedNames Layout.currentVersion) name hname
    · exact hknown name hname
  · obtain rfl : name = "time" := by simpa using hname
    decide

theorem Store.isKnown_sinceCondition (topic : String) (time : Int64) (scheduled : Bool) :
    (Store.sinceCondition topic time scheduled).IsKnown := by
  cases scheduled with
  | false =>
      exact (by decide : ∀ name ∈ ["topic", "time", "published"],
        nameKey name ∈ Layout.releasedNames Layout.currentVersion)
  | true =>
      exact (by decide : ∀ name ∈ ["topic", "time"],
        nameKey name ∈ Layout.releasedNames Layout.currentVersion)

theorem Store.isKnown_dueCondition (now : Int64) : (Store.dueCondition now).IsKnown :=
  (by decide : ∀ name ∈ ["time", "published"],
    nameKey name ∈ Layout.releasedNames Layout.currentVersion)

/-- The messages that a condition means. -/
theorem messagesWhere_eq (ht : db.table? messagesTable = some t) (hcurrent : t.IsCurrent)
    (hrows : List.Forall₂ Row.Holds t.rows es) (hknown : cond.IsKnown)
    (hcond : ∀ r e, r.Holds e → cond.holds t r = p e) :
    Store.messagesWhere db cond = .ok ((Contents.byTime (es.filter p)).map (·.message)) := by
  have hsorted : List.Forall₂ Row.Holds (Database.chosenRows t cond (some "time"))
      (Contents.byTime (es.filter p)) := by
    refine forall₂_sortBy ?_ ((forall₂_filter hcond hrows).imp fun _ _ h => h.1)
    intro a b d e ha hb
    rw [hcurrent.value_eq (by decide), hcurrent.value_eq (by decide)]
    exact (congr (congrArg Cell.le ha.time) hb.time).trans (Cell.le_integer _ _)
  unfold Store.messagesWhere
  rw [Database.select_eq ht (hknown.missing?_eq_none hcurrent)]
  refine readRows_eq (List.forall₂_map_left_iff.mpr (hsorted.imp ?_))
  intro r e hr
  exact hr.readMessage hcurrent

theorem messagesSince_eq (ht : db.table? messagesTable = some t) (hcurrent : t.IsCurrent)
    (hrows : List.Forall₂ Row.Holds t.rows es) (topic : String) (bound : Since)
    (scheduled : Bool) :
    Store.messagesSince db topic bound scheduled =
      .ok ((bound.timestamp.map fun time => (Contents.byTime
        (es.filter (Entry.isSince topic time scheduled))).map (·.message)).getD []) := by
  unfold Store.messagesSince
  cases bound.timestamp with
  | none => rfl
  | some time =>
      exact messagesWhere_eq ht hcurrent hrows (Store.isKnown_sinceCondition topic time scheduled)
        fun r e hr => hr.sinceCondition hcurrent topic time scheduled

theorem messagesDue_eq (ht : db.table? messagesTable = some t) (hcurrent : t.IsCurrent)
    (hrows : List.Forall₂ Row.Holds t.rows es) (now : Int64) :
    Store.messagesDue db now =
      .ok ((Contents.byTime (es.filter (Entry.isDue now))).map (·.message)) :=
  messagesWhere_eq ht hcurrent hrows (Store.isKnown_dueCondition now)
    fun _ _ hr => hr.dueCondition hcurrent now

theorem messageState_eq (ht : db.table? messagesTable = some t) (hcurrent : t.IsCurrent)
    (hrows : List.Forall₂ Row.Holds t.rows es) (id : String) :
    Store.messageState db id = .ok ((es.find? (Entry.hasId id)).map (·.state)) := by
  have hchosen := forall₂_filter (fun r e hr => hr.idCondition hcurrent id) hrows
  have hknown : t.missing? ["published", "id"] = none := hcurrent.missing?_eq_none (by decide)
  unfold Store.messageState
  rw [Database.select_eq ht hknown, ← List.head?_filter]
  unfold Database.chosenRows
  simp only
  generalize es.filter (Entry.hasId id) = ds at hchosen ⊢
  generalize t.rows.filter (fun r => (Store.idCondition id).holds t r) = rows at hchosen ⊢
  cases hchosen with
  | nil => rfl
  | @cons r e rows ds hr _ =>
      have hcell := hcurrent.cell_project (r := r) ["published"] (i := 0) rfl
        (by decide : nameKey "published" ∈ Layout.releasedNames Layout.currentVersion)
      show Except.mapError _ (ResultRow.flag (Database.project t ["published"] r) 0) >>= _ = _
      rw [ResultRow.flag_eq (hcell.trans hr.1.published)]
      simp only [List.head?_cons, Option.map_some]
      cases e.state <;> rfl

/-- Results with one column. -/
theorem exists_column_project (hcurrent : t.IsCurrent) (name : String)
    (hkey : nameKey name = name) (hname : name ∈ Layout.releasedNames Layout.currentVersion) :
    ∃ column, ∀ rows : List Row, (rows.map (Database.project t [name])).flatten =
      rows.map fun r => (column, r.cell name) := by
  obtain ⟨c, hc, hckey, -⟩ := hcurrent.exists_column? (by rw [hkey]; exact hname)
  rw [hkey] at hckey
  refine ⟨c.name, fun rows => ?_⟩
  induction rows with
  | nil => rfl
  | cons r rest ih =>
      rw [List.map_cons, List.flatten_cons, ih, Database.project]
      simp only [List.map_cons, List.map_nil, hc, hckey]
      rfl

/-- Texts in the cells of a result, without those that equal the one before them. -/
theorem dedup_eq (column : String) (texts : List String) :
    Database.dedup (texts.map fun s => (column, Cell.ofString s)) =
      (Contents.runs texts).map fun s => (column, Cell.ofString s) := by
  induction texts with
  | nil => rfl
  | cons s rest ih =>
      rw [List.map_cons, Database.dedup, ih, Contents.runs]
      cases Contents.runs rest with
      | nil => rfl
      | cons d ds =>
          simp only [List.map_cons, Cell.same_ofString, decide_eq_true_eq]
          split <;> rfl

theorem topics_eq (ht : db.table? messagesTable = some t) (hcurrent : t.IsCurrent)
    (hrows : List.Forall₂ Row.Holds t.rows es) :
    Store.topics db = .ok (es.topics.map Topic.mk) := by
  obtain ⟨column, hflatten⟩ := exists_column_project hcurrent "topic" (by decide) (by decide)
  have hsorted : List.Forall₂ Row.Holds (Database.chosenRows t .always (some "topic"))
      (sortBy (fun a b : Entry => Utf8.bytes a.message.topic ≤ Utf8.bytes b.message.topic) es) := by
    have hall : t.rows.filter (fun r => Condition.always.holds t r) = t.rows :=
      List.filter_eq_self.mpr fun _ _ => rfl
    unfold Database.chosenRows
    rw [hall]
    refine forall₂_sortBy ?_ hrows
    intro a b d e ha hb
    rw [hcurrent.value_eq (by decide), hcurrent.value_eq (by decide)]
    exact (congr (congrArg Cell.le ha.topic) hb.topic).trans (Cell.le_ofString _ _)
  have hcells : (Database.chosenRows t .always (some "topic")).map
      (fun r => (column, r.cell "topic")) =
      ((sortBy (fun a b : Entry => Utf8.bytes a.message.topic ≤ Utf8.bytes b.message.topic)
        es).map (·.message.topic)).map fun s => (column, Cell.ofString s) := by
    rw [List.map_map]
    exact map_eq_of_forall₂ (fun r e hr => by rw [hr.topic]; rfl) hsorted
  have hread : ∀ texts : List String,
      Store.readRows (ResultRow.text · 0) (texts.map fun s => [(column, Cell.ofString s)]) =
        .ok texts := by
    intro texts
    have hrows : List.Forall₂ (fun row s => ResultRow.text row 0 = .ok (id s))
        (texts.map fun s => [(column, Cell.ofString s)]) texts := by
      rw [List.forall₂_map_left_iff, List.forall₂_same]
      intro s _
      exact ResultRow.text_eq rfl
    rw [readRows_eq hrows, List.map_id]
  have hknown : t.missing? ["topic", "topic"] = none := hcurrent.missing?_eq_none (by decide)
  unfold Store.topics Database.distinct
  rw [Database.select_eq ht hknown, ok_bind, hflatten, hcells, dedup_eq, List.map_map]
  show Store.readRows _ _ >>= _ = _
  refine (congrArg (· >>= _) (hread _)).trans ?_
  rfl

theorem count_eq (ht : db.table? messagesTable = some t) (hcurrent : t.IsCurrent)
    (hrows : List.Forall₂ Row.Holds t.rows es) (hknown : cond.IsKnown)
    (hcond : ∀ r e, r.Holds e → cond.holds t r = p e) :
    db.count messagesTable cond = .ok (es.countP p) := by
  rw [Database.count_eq ht (hcurrent.missing?_eq_none hknown)]
  exact congrArg Except.ok (countP_eq_of_forall₂ hcond hrows)

theorem attachmentsExpired_eq (ht : db.table? messagesTable = some t) (hcurrent : t.IsCurrent)
    (hrows : List.Forall₂ Row.Holds t.rows es) (now : Int64) :
    Store.attachmentsExpired db now =
      .ok ((sortBy (fun a b => a.expires ≤ b.expires)
        (es.filter (Entry.isExpired now))).map (·.message.id)) := by
  have hknown : t.missing? ["id", "attachment_present", "attachment_expires",
      "attachment_expires", "attachment_expires"] = none := hcurrent.missing?_eq_none (by decide)
  have hchosen := forall₂_filter (fun r e hr => hr.expiredCondition hcurrent now) hrows
  -- an expired attachment is one that is there, and so its time is in the row
  have hexpires : ∀ (r : Row) (e : Entry), r.Holds e ∧ e.isExpired now = true →
      t.value r "attachment_expires" = .integer e.expires := by
    rintro r e ⟨hr, hexpired⟩
    obtain ⟨a, size, ha, hattachment, -⟩ := hr.attachment_eq
    rw [hcurrent.value_eq (by decide)]
    refine ha.expires.trans ?_
    unfold Entry.isExpired at hexpired
    unfold Entry.expires
    cases hsome : e.message.attachment with
    | none => simp [hsome] at hexpired
    | some b =>
        rw [hsome, Option.isSome_some, if_pos rfl] at hattachment
        rw [Option.some.inj hattachment]
        rfl
  have hsorted : List.Forall₂ (fun r e => r.Holds e ∧ e.isExpired now = true)
      (Database.chosenRows t (Store.expiredCondition now) (some "attachment_expires"))
      (sortBy (fun a b => a.expires ≤ b.expires) (es.filter (Entry.isExpired now))) := by
    refine forall₂_sortBy ?_ hchosen
    intro a b d e ha hb
    rw [hexpires a d ha, hexpires b e hb, Cell.le_integer]
  unfold Store.attachmentsExpired
  rw [Database.select_eq ht hknown]
  refine readIds_eq (List.forall₂_map_left_iff.mpr (hsorted.imp ?_))
  intro r e hr
  have hcell := hcurrent.cell_project (r := r) ["id"] (i := 0) rfl
    (by decide : nameKey "id" ∈ Layout.releasedNames Layout.currentVersion)
  exact ResultRow.text_eq (hcell.trans hr.1.id)

end Reads

/-! ## Sums of sizes -/

section Sums

/-- Numbers as the cells that hold them. -/
def sizeCells (ns : List Nat) : List Cell := ns.map fun n => .integer (Int64.ofNat n)

/-- An integer is a total iff it is the number. -/
theorem readTotal_integer {m : Int} {n : UInt64} (hm : InInt64 m) :
    Store.readTotal (.integer (.ofInt m)) = .ok n ↔ m = n.toNat := by
  simp only [Store.readTotal, Int64.lt_iff_toInt_lt, toInt_ofInt hm, Int64.toInt_zero]
  split
  · simp only [reduceCtorEq, false_iff]
    omega
  · have hsize : m.toNat < UInt64.size := by
      have hmax := hm.2
      rw [UInt64.size]
      omega
    rw [Except.ok.injEq, ← UInt64.toNat_inj, UInt64.toNat_ofNat_of_lt' hsize]
    omega

theorem readTotal_integers {ns : List Int64} {n : UInt64} :
    ((Database.Total.ofCells (ns.map .integer)).result.mapError StoreError.database >>=
        Store.readTotal) = .ok n ↔
      StaysInRange 0 ns ∧ (ns.map Int64.toInt).sum = n.toNat := by
  by_cases hrange : StaysInRange 0 ns
  · rw [and_iff_right hrange]
    cases ns with
    | nil =>
        show (.ok 0 : Except StoreError UInt64) = .ok n ↔ _
        rw [Except.ok.injEq, ← UInt64.toNat_inj, List.map_nil, List.sum_nil]
        exact Int.natCast_inj.symm
    | cons m rest =>
        rw [Database.Total.result_integers hrange (List.cons_ne_nil m rest)]
        have htotal := hrange.total
        rw [Int.zero_add] at htotal
        exact readTotal_integer htotal
  · rw [Database.Total.result_integers_of_not hrange]
    exact iff_of_false nofun fun h => hrange h.1

/-- Numbers that are not negative add up in range iff all of them together do. -/
theorem staysInRange_ofNat {ns : List Nat} (hns : ∀ n ∈ ns, InInt64 n) (k : Nat) :
    StaysInRange k (ns.map Int64.ofNat) ↔ InInt64 (k + ns.sum : Nat) := by
  induction ns generalizing k with
  | nil => simp
  | cons n rest ih =>
      have hn := toInt_ofNat (hns n List.mem_cons_self)
      have hrest : ∀ n ∈ rest, InInt64 n := fun m hm => hns m (List.mem_cons_of_mem n hm)
      have hsmaller : InInt64 (k + n + rest.sum : Nat) → InInt64 k := by
        rintro ⟨-, hmax⟩
        exact ⟨by omega, by omega⟩
      rw [List.map_cons, staysInRange_cons, hn, ← Int.natCast_add, ih hrest, List.sum_cons,
        ← Nat.add_assoc]
      exact and_iff_right_of_imp hsmaller

theorem sum_toInt_ofNat {ns : List Nat} (hns : ∀ n ∈ ns, InInt64 n) :
    ((ns.map Int64.ofNat).map Int64.toInt).sum = (ns.sum : Nat) := by
  induction ns with
  | nil => rfl
  | cons n rest ih =>
      have hrest : ∀ n ∈ rest, InInt64 n := fun m hm => hns m (List.mem_cons_of_mem n hm)
      rw [List.map_cons, List.map_cons, List.sum_cons, List.sum_cons, ih hrest,
        toInt_ofNat (hns n List.mem_cons_self), Int.natCast_add]

theorem readTotal_ofCells {ns : List Nat} (hns : ∀ n ∈ ns, InInt64 n) :
    ((Database.Total.ofCells (sizeCells ns)).result.mapError StoreError.database >>=
        Store.readTotal) =
      if InInt64 (ns.sum : Nat) then .ok (UInt64.ofNat ns.sum)
      else .error (.database .integerOverflow) := by
  have hcells : sizeCells ns = (ns.map Int64.ofNat).map .integer := by
    rw [List.map_map]
    rfl
  have hrange := staysInRange_ofNat hns 0
  rw [Nat.zero_add] at hrange
  rw [hcells]
  split
  · rename_i hsum
    have hsize : ns.sum < UInt64.size := by
      have hmax := hsum.2
      rw [UInt64.size]
      omega
    refine readTotal_integers.mpr ⟨hrange.mpr hsum, ?_⟩
    rw [sum_toInt_ofNat hns, UInt64.toNat_ofNat_of_lt' hsize]
  · rename_i hsum
    rw [Database.Total.result_integers_of_not fun h => hsum (hrange.mp h)]
    rfl

theorem attachmentsSize_eq {db : Database} {t : Table} {es : Contents}
    (ht : db.table? messagesTable = some t) (hcurrent : t.IsCurrent)
    (hrows : List.Forall₂ Row.Holds t.rows es) (owner : String) (now : Int64) :
    Store.attachmentsSize db owner now = es.charge owner now := by
  have hknown : t.missing? ["attachment_size", "attachment_present", "attachment_owner",
      "attachment_expires", "attachment_expires"] = none := hcurrent.missing?_eq_none (by decide)
  have hchosen := forall₂_filter (fun r e hr => hr.chargedCondition hcurrent owner now) hrows
  obtain ⟨column, hflatten⟩ :=
    exists_column_project hcurrent "attachment_size" (by decide) (by decide)
  -- a charged attachment is one that is there, and so its size is in the row
  have hsize : ∀ (r : Row) (e : Entry), r.Holds e ∧ e.isCharged owner now = true →
      InInt64 e.size ∧ r.cell "attachment_size" = .integer (Int64.ofNat e.size) := by
    rintro r e ⟨hr, hcharged⟩
    obtain ⟨a, size, ha, hattachment, hstored⟩ := hr.attachment_eq
    unfold Entry.isCharged at hcharged
    unfold Entry.size
    cases hsome : e.message.attachment with
    | none => simp [hsome] at hcharged
    | some b =>
        rw [hsome, Option.isSome_some, if_pos rfl] at hattachment
        rw [hsome] at hstored
        obtain ⟨hrange, rfl⟩ := hstored rfl
        rw [Option.some.inj hattachment]
        exact ⟨hrange, ha.size⟩
  have hcells : (Database.chosenRows t (Store.chargedCondition owner now) none).map
      (fun r => r.cell "attachment_size") =
      sizeCells ((es.filter (Entry.isCharged owner now)).map Entry.size) := by
    unfold sizeCells
    rw [List.map_map]
    exact map_eq_of_forall₂ (fun r e hr => (hsize r e hr).2) hchosen
  have hrange : ∀ n ∈ (es.filter (Entry.isCharged owner now)).map Entry.size, InInt64 n := by
    intro n hn
    obtain ⟨e, he, rfl⟩ := List.mem_map.mp hn
    obtain ⟨r, -, hr⟩ := forall₂_exists_left hchosen he
    exact (hsize r e hr).1
  unfold Store.attachmentsSize Database.sum
  rw [Database.select_eq ht hknown, ok_bind, hflatten, List.map_map]
  have hsnd : (fun c : String × Cell => c.2) ∘ (fun r : Row => (column, r.cell "attachment_size")) =
      fun r => r.cell "attachment_size" := rfl
  rw [hsnd, hcells]
  exact readTotal_ofCells hrange

end Sums

/-! ## Writing among any rows -/

section Current

variable {db : Database} {t : Table}

theorem markPublished_of_current (ht : db.table? messagesTable = some t) (hcurrent : t.IsCurrent)
    (id : String) : Store.markPublished db id =
      .ok (decide (t.rows.countP (fun r => (Store.idCondition id).holds t r) ≠ 0),
        db.setTable messagesTable
          (Database.assigned t "published" (.integer 1) (Store.idCondition id))) := by
  have hknown : t.missing? ["published", "id"] = none := hcurrent.missing?_eq_none (by decide)
  have hname : nameKey "published" ∈ Layout.releasedNames Layout.currentVersion := by decide
  obtain ⟨c, hc, hkey, haffinity, hisKey⟩ := hcurrent.exists_column? hname
  have happly : c.affinity.apply (.integer 1) = .integer 1 := by
    rw [haffinity, show Layout.affinity (nameKey "published") = .integer by decide]
    rfl
  have hupdate := Database.update_eq_ok (.integer 1) (Store.idCondition id) ht
    (by decide) hknown hc (by rw [happly]; exact Cell.integer_ne_null 1) (by rw [hisKey]; decide)
  rw [happly, hkey, show nameKey "published" = "published" by decide] at hupdate
  unfold Store.markPublished
  rw [hupdate]
  rfl

theorem prune_of_current (ht : db.table? messagesTable = some t) (hcurrent : t.IsCurrent)
    (olderThan : Int64) : Store.prune db olderThan =
      .ok (t.rows.countP (fun r => (Store.pruneCondition olderThan).holds t r),
        db.setTable messagesTable { t with
          rows := t.rows.filter fun r => !(Store.pruneCondition olderThan).holds t r }) := by
  have hknown : t.missing? ["time", "published"] = none := hcurrent.missing?_eq_none (by decide)
  unfold Store.prune
  rw [Database.delete_eq (Store.pruneCondition olderThan) ht hknown]
  rfl

/-- An insertion of a row without nulls fails iff its id is taken. -/
theorem insert_of_current (ht : db.table? messagesTable = some t) (hcurrent : t.IsCurrent)
    {values : List (String × Cell)} (hnames : values.map (·.1) = cellNames)
    (hnull : Database.nullColumn? t (Database.nextRow t values) = none) :
    ∃ table column, db.insert messagesTable values .refuse =
      if t.rows.any (Database.sameKey "id" (Database.nextRow t values)) then
        .error (.notUnique table column)
      else .ok (db.setTable messagesTable
        { t with rows := Table.place (Database.nextRow t values) t.rows }) := by
  obtain ⟨c, hc, hkey⟩ := hcurrent.exists_keyColumn?
  refine ⟨t.name, c.name, ?_⟩
  have hknown : t.missing? (values.map (·.1)) = none := by
    rw [hnames]
    exact hcurrent.missing?_eq_none (by decide)
  have hwritable : (values.map (·.1)).findSome? Database.nameFault? = none := by
    rw [hnames]
    decide
  have hids : ∀ v ∈ values, nameKey v.1 ∉ Table.idNames := by
    intro v hv
    have hall : ∀ name ∈ cellNames, nameKey name ∉ Table.idNames := by decide
    exact hall v.1 (hnames ▸ List.mem_map_of_mem hv)
  have hne : values ≠ [] := by
    rintro rfl
    cases hnames
  rw [Database.insert_eq ht hne hwritable hids hknown, hnull]
  show Database.insertRow db messagesTable t _ .refuse = _
  unfold Database.insertRow
  simp only [hc, hkey]

/-- A message is refused, or it becomes a row that holds it, unless its id is taken. -/
theorem add_of_current (ht : db.table? messagesTable = some t) (hcurrent : t.IsCurrent)
    (m : Message) (now : Int64) :
    (∃ error, m.refusal? = some error ∧ Store.add db m now = .error error) ∨
      ∃ r : Row, m.refusal? = none ∧
        r.Holds { rowId := Table.nextId (t.rows.map (·.id)), message := m
                  state := .atInsert m.time now } ∧
        Store.add db m now =
          if t.rows.any (Database.sameKey "id" r) then .error (.duplicateId m.id)
          else .ok (db.setTable messagesTable { t with rows := Table.place r t.rows }) := by
  by_cases hevent : m.event = .message
  · have hadd : Store.add db m now = (messageCells m (.atInsert m.time now)) >>= fun cells =>
        (db.insert messagesTable cells .refuse).mapError (Store.insertionError m.id) := by
      unfold Store.add
      rw [if_neg (not_not_intro hevent)]
    rcases messageCells_eq hevent (.atInsert m.time now) with
      ⟨error, hrefusal, hcells⟩ | ⟨stored, a, hrefusal, htags, hsize, ha, hcells⟩
    · refine .inl ⟨error, hrefusal, ?_⟩
      rw [hadd, hcells, error_bind]
    · have hnew := Row.Holds.nextRow hcurrent (.atInsert m.time now) hevent htags hsize ha
      obtain ⟨table, column, hinsert⟩ := insert_of_current ht hcurrent
        (names_entryCells m _ stored a) (hnew.nullColumn? hcurrent)
      refine .inr ⟨_, hrefusal, hnew, ?_⟩
      rw [hadd, hcells, ok_bind, hinsert]
      split <;> rfl
  · refine .inl ⟨.typeMismatch m.event, ?_, ?_⟩
    · rw [Message.refusal?, if_pos hevent]
    · unfold Store.add
      rw [if_pos hevent]
      rfl

end Current

/-! ## Writing -/

section Writes

variable {db : Database} {t : Table} {es : Contents}

/-- Other rows in the same columns. -/
theorem Represents.of_rows (db : Database) {rows : List Row} (hcurrent : t.IsCurrent)
    (hrows : List.Forall₂ Row.Holds rows es) (hdistinct : es.Distinct) :
    Represents (db.setTable messagesTable { t with rows }) es where
  exists_table := ⟨_, Database.table?_setTable_self db messagesTable _, hcurrent, hrows⟩
  distinct := hdistinct

theorem countP_ne_zero (es : Contents) (p : Entry → Bool) :
    decide (es.countP p ≠ 0) = es.any p := by
  rw [Bool.eq_iff_iff, decide_eq_true_eq, ← Nat.pos_iff_ne_zero, List.countP_pos_iff,
    List.any_eq_true]

/-- Of a published message only the state is another. -/
theorem Row.Holds.set_published {r : Row} {e : Entry} (h : r.Holds e) :
    (r.set "published" (.integer 1)).Holds e.published := by
  obtain ⟨a, size, ha, hall⟩ := h.attachment
  have hcell : ∀ key, key ≠ "published" →
      (r.set "published" (.integer 1)).cell key = r.cell key := by
    intro key hkey
    rw [Row.cell_set, if_neg hkey]
  constructor
  case rowId => exact h.rowId
  case event => exact h.event
  case id => exact (hcell _ (by decide)).trans h.id
  case time => exact (hcell _ (by decide)).trans h.time
  case topic => exact (hcell _ (by decide)).trans h.topic
  case body => exact (hcell _ (by decide)).trans h.body
  case title => exact (hcell _ (by decide)).trans h.title
  case priority => exact (hcell _ (by decide)).trans h.priority
  case tags =>
    obtain ⟨stored, htags, hdecode⟩ := h.tags
    exact ⟨stored, (hcell _ (by decide)).trans htags, hdecode⟩
  case click => exact (hcell _ (by decide)).trans h.click
  case encoding => exact (hcell _ (by decide)).trans h.encoding
  case published => rw [Row.cell_set, if_pos rfl]; rfl
  case present => exact (hcell _ (by decide)).trans h.present
  case attachment =>
    refine ⟨a, size, ?_, hall⟩
    constructor
    case name => exact (hcell _ (by decide)).trans ha.name
    case mimeType => exact (hcell _ (by decide)).trans ha.mimeType
    case size => exact (hcell _ (by decide)).trans ha.size
    case expires => exact (hcell _ (by decide)).trans ha.expires
    case url => exact (hcell _ (by decide)).trans ha.url
    case owner => exact (hcell _ (by decide)).trans ha.owner

theorem markPublished_eq (ht : db.table? messagesTable = some t) (hcurrent : t.IsCurrent)
    (hrows : List.Forall₂ Row.Holds t.rows es) (hdistinct : es.Distinct) (id : String) :
    ∃ after, Store.markPublished db id = .ok (es.any (Entry.hasId id), after) ∧
      Represents after (es.after (.mark id)) := by
  have hcond := fun (r : Row) (e : Entry) (hr : r.Holds e) => hr.idCondition hcurrent id
  have hrows' : List.Forall₂ Row.Holds
      (Database.assigned t "published" (.integer 1) (Store.idCondition id)).rows
      (es.after (.mark id)) := by
    show List.Forall₂ Row.Holds (t.rows.map _) (es.map _)
    rw [List.forall₂_map_left_iff, List.forall₂_map_right_iff]
    refine hrows.imp fun r e hr => ?_
    rw [hcond r e hr]
    split
    · exact hr.set_published
    · exact hr
  refine ⟨_, ?_, .of_rows db hcurrent hrows' (hdistinct.after (.mark id))⟩
  rw [markPublished_of_current ht hcurrent, countP_eq_of_forall₂ hcond hrows, countP_ne_zero]
  rfl

theorem prune_eq (ht : db.table? messagesTable = some t) (hcurrent : t.IsCurrent)
    (hrows : List.Forall₂ Row.Holds t.rows es) (hdistinct : es.Distinct) (olderThan : Int64) :
    ∃ after, Store.prune db olderThan = .ok (es.countP (Entry.isPruned olderThan), after) ∧
      Represents after (es.after (.prune olderThan)) := by
  have hcond := fun (r : Row) (e : Entry) (hr : r.Holds e) => hr.pruneCondition hcurrent olderThan
  have hrows' : List.Forall₂ Row.Holds
      (t.rows.filter fun r => !(Store.pruneCondition olderThan).holds t r)
      (es.after (.prune olderThan)) :=
    (forall₂_filter (fun r e hr => by rw [hcond r e hr]) hrows).imp fun _ _ h => h.1
  refine ⟨_, ?_, .of_rows db hcurrent hrows' (hdistinct.after (.prune olderThan))⟩
  rw [prune_of_current ht hcurrent, countP_eq_of_forall₂ hcond hrows]

theorem rowIds_eq (hrows : List.Forall₂ Row.Holds t.rows es) :
    t.rows.map (·.id) = es.rowIds := map_eq_of_forall₂ (fun _ _ hr => hr.rowId) hrows

/-- A row is put where its entry is put. -/
theorem forall₂_place {r : Row} {e : Entry} {rows : List Row} (hr : r.Holds e)
    (hrows : List.Forall₂ Row.Holds rows es) :
    List.Forall₂ Row.Holds (Table.place r rows) (es.place e) := by
  have hbefore := forall₂_filter (p := fun s : Row => decide (s.id < r.id))
    (q := fun d : Entry => decide (d.rowId < e.rowId))
    (fun s d hs => by rw [hs.rowId, hr.rowId]) hrows
  have hafter := forall₂_filter (p := fun s : Row => decide (r.id < s.id))
    (q := fun d : Entry => decide (e.rowId < d.rowId))
    (fun s d hs => by rw [hs.rowId, hr.rowId]) hrows
  exact List.rel_append (hbefore.imp fun _ _ h => h.1)
    (.cons hr (hafter.imp fun _ _ h => h.1))

/-- A message is added as a row that holds it, or refused for the same reason. -/
theorem add_eq (ht : db.table? messagesTable = some t) (hcurrent : t.IsCurrent)
    (hrows : List.Forall₂ Row.Holds t.rows es) (m : Message) (now : Int64) :
    (∃ error, es.add m now = .error error ∧ Store.add db m now = .error error) ∨
      ∃ r, r.Holds (es.newEntry m now) ∧ es.add m now = .ok (es.place (es.newEntry m now)) ∧
        Store.add db m now =
          .ok (db.setTable messagesTable { t with rows := Table.place r t.rows }) := by
  rcases add_of_current ht hcurrent m now with
    ⟨error, hrefusal, hadd⟩ | ⟨r, hrefusal, hnew, hadd⟩
  · exact .inl ⟨error, by rw [Contents.add, hrefusal], hadd⟩
  · rw [rowIds_eq hrows] at hnew
    have hsame : t.rows.any (Database.sameKey "id" r) = es.any (Entry.hasId m.id) := by
      refine any_eq_of_forall₂ (fun s d hs => ?_) hrows
      unfold Database.sameKey Entry.hasId
      rw [hnew.id, hs.id, Comparison.eq_holds_ofString, decide_eq_decide]
      exact eq_comm
    rw [hsame] at hadd
    by_cases htaken : es.any (Entry.hasId m.id)
    · rw [if_pos htaken] at hadd
      refine .inl ⟨.duplicateId m.id, ?_, hadd⟩
      unfold Contents.add
      rw [hrefusal]
      exact if_pos htaken
    · rw [if_neg htaken] at hadd
      refine .inr ⟨r, hnew, ?_, hadd⟩
      unfold Contents.add
      rw [hrefusal]
      exact if_neg htaken

end Writes

/-! ## Calls -/

section Calls

variable {db : Database} {es : Contents}

/-- Every call gives the answer of the contents, and leaves what they become. -/
theorem Represents.call (h : Represents db es) (call : Store.Call) :
    ∃ after, call.run db = (es.answer call, after) ∧ Represents after (es.after call) := by
  obtain ⟨t, ht, hcurrent, hrows⟩ := h.exists_table
  cases call with
  | add m now =>
      have hdistinct := h.distinct.after (.add m now)
      rw [Store.Call.run, Contents.answer, Contents.after]
      rw [Contents.after] at hdistinct
      rcases add_eq ht hcurrent hrows m now with
        ⟨error, hadd, hstore⟩ | ⟨r, hr, hadd, hstore⟩
      · rw [hadd, hstore]
        exact ⟨db, rfl, h⟩
      · rw [hadd] at hdistinct
        rw [hadd, hstore]
        exact ⟨_, rfl, .of_rows db hcurrent (forall₂_place hr hrows) hdistinct⟩
  | since topic bound scheduled =>
      refine ⟨db, ?_, h⟩
      rw [Store.Call.run, messagesSince_eq ht hcurrent hrows]
      cases bound <;> rfl
  | due now =>
      refine ⟨db, ?_, h⟩
      rw [Store.Call.run, messagesDue_eq ht hcurrent hrows]
      rfl
  | mark id =>
      obtain ⟨after, hmark, hafter⟩ := markPublished_eq ht hcurrent hrows h.distinct id
      refine ⟨after, ?_, hafter⟩
      rw [Store.Call.run, hmark]
      rfl
  | state id =>
      refine ⟨db, ?_, h⟩
      rw [Store.Call.run, messageState_eq ht hcurrent hrows]
      rfl
  | count topic =>
      refine ⟨db, ?_, h⟩
      have hknown : (Condition.compare "topic" .eq (.ofString topic)).IsKnown :=
        (by decide : ∀ name ∈ ["topic"],
          nameKey name ∈ Layout.releasedNames Layout.currentVersion)
      have hcond := fun (r : Row) (e : Entry) (hr : r.Holds e) => hr.topicCondition hcurrent topic
      rw [Store.Call.run, Store.messageCount, count_eq ht hcurrent hrows hknown hcond]
      rfl
  | total =>
      refine ⟨db, ?_, h⟩
      rw [Store.Call.run, Store.totalMessageCount,
        count_eq (p := fun _ => true) ht hcurrent hrows (by decide) fun _ _ _ => rfl,
        List.countP_true]
      rfl
  | topics =>
      refine ⟨db, ?_, h⟩
      rw [Store.Call.run, topics_eq ht hcurrent hrows]
      rfl
  | prune olderThan =>
      obtain ⟨after, hprune, hafter⟩ := prune_eq ht hcurrent hrows h.distinct olderThan
      refine ⟨after, ?_, hafter⟩
      rw [Store.Call.run, hprune]
      rfl
  | size owner now =>
      refine ⟨db, ?_, h⟩
      rw [Store.Call.run, attachmentsSize_eq ht hcurrent hrows]
      rfl
  | expired now =>
      refine ⟨db, ?_, h⟩
      rw [Store.Call.run, attachmentsExpired_eq ht hcurrent hrows]
      rfl

/-- Calls one after the other. -/
theorem Represents.run (h : Represents db es) (calls : List Store.Call) :
    (Store.run db calls).1 = (es.run calls).1 ∧
      Represents (Store.run db calls).2 (es.run calls).2 := by
  induction calls generalizing db es with
  | nil => exact ⟨rfl, h⟩
  | cons call rest ih =>
      obtain ⟨after, hcall, hafter⟩ := h.call call
      obtain ⟨hanswers, hdb⟩ := ih hafter
      simp only [Store.run, Contents.run, hcall]
      exact ⟨by rw [hanswers], hdb⟩

/-- A new store is empty. -/
theorem represents_fresh : Represents (ensureCurrent .granted .empty).database [] where
  exists_table := ⟨_, rfl, List.Perm.refl _, .nil⟩
  distinct := List.nodup_nil

end Calls

end MessageCache
