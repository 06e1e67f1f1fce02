/-
# Preparing a call

A call is prepared with the tables that are known, and of these no rows are known
(`Table.IsBare`).  Where the columns of the current layout are there, nothing is wrong with
any call (`Call.check_ok`): what reads finds nothing, what changes rows finds none, and a
row that is added can at most break a rule of the table, which is found out later.
-/
import MessageCache.Proofs.Schema.Carry
import MessageCache.Proofs.Store.Simulation

namespace MessageCache

section Preparing

variable {known : Database} {t : Table} {call : Store.Call} {fault : Fault}

/-! ## Tables without rows -/

/-- A table with the columns of the current layout, and without rows. -/
structure Table.IsBare (t : Table) : Prop where
  layout : t.HasLayout Layout.currentVersion
  rows : t.rows = []

/-- The names are those of columns in the current layout. -/
def AreColumns (names : List String) : Prop :=
  ∀ name ∈ names, nameKey name ∈ Layout.releasedNames Layout.currentVersion

instance (names : List String) : Decidable (AreColumns names) := by
  unfold AreColumns
  infer_instance

theorem Table.HasLayout.missing?_eq_none (h : t.HasLayout Layout.currentVersion)
    {names : List String} (hnames : AreColumns names) : t.missing? names = none := by
  have hids : ∀ key ∈ Layout.releasedNames Layout.currentVersion, key ∉ idNames := by decide
  rw [Table.missing?_eq_none fun name hname => hids _ (hnames name hname)]
  exact fun name hname => h.mem_iff.mpr (hnames name hname)

namespace Table.IsBare

theorem select_eq (h : t.IsBare) (ht : known.table? messagesTable = some t)
    {columns : List String} {cond : Condition} {orderBy : Option String}
    (hcolumns : AreColumns (columns ++ cond.columns ++ orderBy.toList)) :
    known.select messagesTable columns cond orderBy = .ok [] := by
  have hnone : Database.chosenRows t cond orderBy = [] := by
    unfold Database.chosenRows Database.ordered
    rw [h.rows]
    cases orderBy <;> rfl
  rw [Database.select_eq ht (h.layout.missing?_eq_none hcolumns), hnone]
  rfl

theorem messagesWhere_eq (h : t.IsBare) (ht : known.table? messagesTable = some t)
    {cond : Condition} (hcond : cond.IsKnown) : Store.messagesWhere known cond = .ok [] := by
  unfold Store.messagesWhere
  rw [h.select_eq ht]
  · rfl
  · intro name hname
    rcases List.mem_append.mp hname with hname | hname
    · rcases List.mem_append.mp hname with hname | hname
      · exact (by decide : AreColumns messageColumns) name hname
      · exact hcond name hname
    · exact (by decide : AreColumns ["time"]) name hname

/-- Without other rows a row is added unless it breaks a rule. -/
theorem insert_eq (h : t.IsBare) (ht : known.table? messagesTable = some t)
    {values : List (String × Cell)} (hnames : values.map (·.1) = cellNames) :
    (∃ fault, known.insert messagesTable values .refuse = .error fault ∧
      fault.isBrokenRule = true) ∨ ∃ after, known.insert messagesTable values .refuse = .ok after := by
  have hknown : t.missing? (values.map (·.1)) = none := by
    rw [hnames]
    exact h.layout.missing?_eq_none (by decide)
  have hwritable : (values.map (·.1)).findSome? Database.nameFault? = none := by
    rw [hnames]
    decide
  have hids : ∀ v ∈ values, nameKey v.1 ∉ idNames := by
    intro v hv
    have hall : ∀ name ∈ cellNames, nameKey name ∉ idNames := by decide
    exact hall v.1 (hnames ▸ List.mem_map_of_mem hv)
  have hne : values ≠ [] := by
    rintro rfl
    cases hnames
  rw [Database.insert_eq ht hne hwritable hids hknown]
  cases Database.nullColumn? t (Database.nextRow t values) with
  | some c => exact .inl ⟨_, rfl, rfl⟩
  | none =>
      refine .inr ?_
      simp only [Database.conflictFault?]
      unfold Database.insertRow
      rw [h.rows]
      cases t.keyColumn? <;> exact ⟨_, rfl⟩

end Table.IsBare

/-! ## Calls -/

theorem Message.refusal?_ne_database (m : Message) (fault : Fault) :
    m.refusal? ≠ some (.database fault) := by
  intro h
  unfold Message.refusal? at h
  split at h
  · cases h
  · split at h
    · cases h
    · split at h
      · cases h
      · split at h <;> cases h

namespace Table.IsBare

theorem select_idCondition (h : t.IsBare) (ht : known.table? messagesTable = some t) (id : String) :
    known.select messagesTable ["published"] (Store.idCondition id) none = .ok [] :=
  h.select_eq ht (by
    show AreColumns ["published", "id"]
    decide)

/-- Where there are no rows, whatever does not add one goes well. -/
theorem run_ok (h : t.IsBare) (ht : known.table? messagesTable = some t)
    (hadd : ∀ m now, call ≠ .add m now) : ∃ reply, (call.run known).1 = .ok reply := by
  cases call with
  | add m now => exact absurd rfl (hadd m now)
  | mark id =>
      have hkey : nameKey "published" ∈ t.columns.map Column.key :=
        h.layout.mem_iff.mpr (by decide)
      obtain ⟨c, hc⟩ := Option.isSome_iff_exists.mp (Table.isSome_column?.mpr hkey)
      have hknown : t.missing? ("published" :: (Store.idCondition id).columns) = none :=
        h.layout.missing?_eq_none (by
          show AreColumns ["published", "id"]
          decide)
      have hupdate : ∃ x, known.update messagesTable "published" (.integer 1)
          (Store.idCondition id) = .ok x := by
        unfold Database.update
        simp [Database.writable, Database.nameFault?, Database.find_eq_ok.mpr ht, Database.known,
          hknown, hc, h.rows]
      obtain ⟨x, hx⟩ := hupdate
      show ∃ reply, (Store.writing known ((Store.markPublished known id).map _)).1 = .ok reply
      unfold Store.markPublished
      rw [hx]
      exact ⟨_, rfl⟩
  | prune olderThan =>
      have hknown : t.missing? (Store.pruneCondition olderThan).columns = none :=
        h.layout.missing?_eq_none (by
          show AreColumns ["time", "published"]
          decide)
      show ∃ reply, (Store.writing known ((Store.prune known olderThan).map _)).1 = .ok reply
      unfold Store.prune
      rw [Database.delete_eq _ ht hknown]
      exact ⟨_, rfl⟩
  | since topic bound scheduled =>
      show ∃ reply, (Store.messagesSince known topic bound scheduled).map Store.Reply.messages =
        .ok reply
      unfold Store.messagesSince
      cases bound.timestamp with
      | none => exact ⟨_, rfl⟩
      | some time =>
          simp only [h.messagesWhere_eq ht (Store.isKnown_sinceCondition topic time scheduled)]
          exact ⟨_, rfl⟩
  | due now =>
      show ∃ reply, (Store.messagesDue known now).map Store.Reply.messages = .ok reply
      unfold Store.messagesDue
      rw [h.messagesWhere_eq ht (Store.isKnown_dueCondition now)]
      exact ⟨_, rfl⟩
  | state id =>
      show ∃ reply, (Store.messageState known id).map Store.Reply.state = .ok reply
      unfold Store.messageState
      rw [h.select_idCondition ht]
      exact ⟨_, rfl⟩
  | count topic =>
      show ∃ reply, (Store.messageCount known topic).map Store.Reply.count = .ok reply
      unfold Store.messageCount
      rw [Database.count_eq ht (h.layout.missing?_eq_none (by
        show AreColumns ["topic"]
        decide))]
      exact ⟨_, rfl⟩
  | total =>
      show ∃ reply, (Store.totalMessageCount known).map Store.Reply.count = .ok reply
      unfold Store.totalMessageCount
      rw [Database.count_eq ht (h.layout.missing?_eq_none (by decide))]
      exact ⟨_, rfl⟩
  | topics =>
      show ∃ reply, (Store.topics known).map Store.Reply.topics = .ok reply
      unfold Store.topics Database.distinct
      rw [h.select_eq ht (by decide)]
      exact ⟨_, rfl⟩
  | size owner now =>
      show ∃ reply, (Store.attachmentsSize known owner now).map Store.Reply.size = .ok reply
      unfold Store.attachmentsSize Database.sum
      rw [h.select_eq ht (by
        show AreColumns ["attachment_size", "attachment_present", "attachment_owner",
          "attachment_expires", "attachment_expires"]
        decide)]
      exact ⟨_, rfl⟩
  | expired now =>
      show ∃ reply, (Store.attachmentsExpired known now).map Store.Reply.ids = .ok reply
      unfold Store.attachmentsExpired
      rw [h.select_eq ht (by
        show AreColumns ["id", "attachment_present", "attachment_expires", "attachment_expires",
          "attachment_expires"]
        decide)]
      exact ⟨_, rfl⟩

/-- Where there are no rows, a row that is added can at most break a rule. -/
theorem isBrokenRule_of_add (h : t.IsBare) (ht : known.table? messagesTable = some t) {m : Message}
    {now : Int64} (hfault : ((Store.Call.add m now).run known).1 = .error (.database fault)) :
    fault.isBrokenRule = true := by
  have hadd : Store.add known m now = .error (.database fault) := by
    change (Store.writing known ((Store.add known m now).map _)).1 = _ at hfault
    cases hr : Store.add known m now with
    | error e =>
        rw [hr] at hfault
        exact congrArg _ (Except.error.inj hfault)
    | ok after =>
        rw [hr] at hfault
        cases hfault
  unfold Store.add at hadd
  split at hadd
  · cases hadd
  · rename_i hevent
    rcases messageCells_eq (not_not.mp hevent) (.atInsert m.time now) with
      ⟨e, hrefusal, hcells⟩ | ⟨tags, a, -, -, -, -, hcells⟩
    · rw [hcells, error_bind] at hadd
      obtain rfl := Except.error.inj hadd
      exact absurd hrefusal (m.refusal?_ne_database fault)
    · rw [hcells, ok_bind] at hadd
      rcases h.insert_eq ht (names_entryCells m _ tags a) with ⟨f, hinsert, hf⟩ | ⟨_, hinsert⟩
      · rw [hinsert] at hadd
        have hinserted : Store.insertionError m.id f = .database fault := Except.error.inj hadd
        cases f
        all_goals cases hinserted
        all_goals exact hf
      · rw [hinsert] at hadd
        cases hadd

end Table.IsBare

/-- Preparing a call goes well where the columns are there. -/
theorem Store.Call.check_ok (h : t.IsBare) (ht : known.table? messagesTable = some t)
    (call : Store.Call) : ∃ writes, call.plan.check known = .ok writes := by
  unfold Store.Call.plan
  dsimp only
  split
  · rename_i fault hfault
    suffices hrule : fault.isBrokenRule = true from ⟨true, if_pos hrule⟩
    by_cases hadd : ∃ m now, call = .add m now
    · obtain ⟨m, now, rfl⟩ := hadd
      exact h.isBrokenRule_of_add ht hfault
    · obtain ⟨reply, hreply⟩ := h.run_ok ht fun m now hcall => hadd ⟨m, now, hcall⟩
      rw [hreply] at hfault
      cases hfault
  · exact ⟨_, rfl⟩

end Preparing

end MessageCache
