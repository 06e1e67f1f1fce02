/-
# An upgraded store and a new one

A store that an older release has written is brought to the current layout; a new store is
given the same messages in the same order.  From then on both answer alike, whatever they
are asked (`upgraded_like_fresh`):

    WrittenBy v db t ws   ⟹   the upgraded store represents the entries of ws
                                with the ids of their rows            (`WrittenBy.represents`)
    adding their messages to a new store   ⟹   entries that are alike   (`represents_adds`)
    entries that are alike, with room   ⟹   the same answers           (`Contents.Alike.run`)

Room has to be asked for.  Rows keep their ids in an upgrade, and a store whose greatest
id is used up puts new messages before old ones of the same time; the new store does not,
since it counts its rows from one (`not_alike_without_room`).

A `Written` has a value for every column that a release before the last had.  What a
release did not know of yet is what the columns begin with when they are added (`trim`).
-/
import MessageCache.Proofs.Schema.Carry
import MessageCache.Proofs.Store.Alike

namespace MessageCache

/-! ## What a release has written -/

/-- What the columns of a row hold, other than the flag for an attachment. -/
structure Written where
  rowId : Int
  id : String
  time : Int64
  topic : String
  body : String
  title : String
  priority : UInt8
  /-- The tags as they are stored. -/
  tags : String
  published : Bool
  click : String
  attachment : Attachment
  encoding : String

/-- The version that a column came with. -/
def Layout.release (name : String) : Nat := (List.range 6).findIdx fun u => name ∈ added u

/-- Columns before the last one came with one of the versions before the last. -/
theorem Layout.mem_added_release {name : String} (hname : name ∈ releasedNames 4) :
    release name ≤ 4 ∧ name ∈ added (release name) ∧ name ≠ attachmentFlag := by
  have hall : ∀ name ∈ releasedNames 4,
      release name ≤ 4 ∧ name ∈ added (release name) ∧ name ≠ attachmentFlag := by decide
  exact hall name hname

namespace Written

/-- The cells by the names of their columns. -/
def cells (w : Written) : List (String × Cell) :=
  [("id", .ofString w.id), ("time", .integer w.time), ("topic", .ofString w.topic),
    ("message", .ofString w.body), ("title", .ofString w.title),
    ("priority", .integer (Int64.ofNat w.priority.toNat)), ("tags", .ofString w.tags),
    ("published", .ofBool w.published), ("click", .ofString w.click),
    ("attachment_name", .ofString w.attachment.name),
    ("attachment_type", .ofString w.attachment.mimeType),
    ("attachment_size", .integer (Int64.ofNat w.attachment.size.toNat)),
    ("attachment_expires", .integer w.attachment.expires),
    ("attachment_url", .ofString w.attachment.url),
    ("attachment_owner", .ofString w.attachment.owner), ("encoding", .ofString w.encoding)]

def cell (w : Written) (name : String) : Cell := findCell name w.cells

/-- What a release leaves of it: columns of later ones are as they begin. -/
def trim (v : Nat) (w : Written) : Written :=
  { w with
    title := if 1 ≤ v then w.title else ""
    priority := if 1 ≤ v then w.priority else 0
    tags := if 1 ≤ v then w.tags else ""
    published := if 2 ≤ v then w.published else true
    click := if 3 ≤ v then w.click else ""
    attachment := if 3 ≤ v then w.attachment else .blank
    encoding := if 4 ≤ v then w.encoding else "" }

/-- The message, which has an attachment if that has a name and a url. -/
def message (w : Written) : Message :=
  { id := w.id, time := w.time, event := .message, topic := w.topic, body := w.body
    title := w.title, priority := w.priority, tags := Tags.decode w.tags, click := w.click
    attachment :=
      if w.attachment.name ≠ "" ∧ w.attachment.url ≠ "" then some w.attachment else none
    encoding := w.encoding }

def state (w : Written) : DeliveryState := .ofFlag w.published

def entry (w : Written) : Entry := { rowId := w.rowId, message := w.message, state := w.state }

/-- Tags are stored tags, a size is a stored integer, and a message is scheduled only if
there is a time before its own. -/
structure Valid (w : Written) : Prop where
  tags : ∃ tags, Tags.encode tags = .ok w.tags
  size : InInt64 w.attachment.size.toNat
  scheduled : w.published = false → Int64.minValue < w.time

/-- A row holds it in the columns of a version. -/
structure InRow (v : Nat) (r : Row) (w : Written) : Prop where
  rowId : r.id = w.rowId
  cells : ∀ name ∈ Layout.releasedNames v, r.cell name = w.cell name

variable {v : Nat} {w : Written}

theorem Valid.trim (h : w.Valid) (v : Nat) : (w.trim v).Valid where
  tags := by
    unfold Written.trim
    simp only
    split
    · exact h.tags
    · exact ⟨[], rfl⟩
  size := by
    unfold Written.trim
    simp only
    split
    · exact h.size
    · decide
  scheduled := by
    unfold Written.trim
    simp only
    split
    · exact h.scheduled
    · intro hpublished
      cases hpublished

/-- There is a time at which the message is added in its state. -/
theorem Valid.exists_clock (h : w.Valid) : ∃ now, .atInsert w.time now = w.state := by
  unfold state DeliveryState.ofFlag
  cases hpublished : w.published with
  | true => exact ⟨w.time, if_pos (Int64.le_refl _)⟩
  | false =>
      have hlt := h.scheduled hpublished
      exact ⟨Int64.minValue, if_neg (Int64.not_le.mpr hlt)⟩

theorem findCell_map_snd {f : String → Cell → Cell} {cells : List (String × Cell)} {name : String}
    (hname : name ∈ cells.map (·.1)) :
    findCell name (cells.map fun c => (c.1, f c.1 c.2)) = f name (findCell name cells) := by
  induction cells with
  | nil => cases hname
  | cons c rest ih =>
      rw [List.map_cons, findCell, findCell]
      split
      · rename_i heq
        rw [heq]
      · rename_i hne
        exact ih ((List.mem_cons.mp hname).resolve_left fun h => hne h.symm)

theorem names_cells (w : Written) : w.cells.map (·.1) = Layout.releasedNames 4 := rfl

/-- Columns of a release and of those before it are left as they are, others are as they
begin. -/
theorem cells_trim : (w.trim v).cells = w.cells.map fun c =>
    (c.1, if Layout.release c.1 ≤ v then c.2 else Layout.backfill c.1) := by
  have hrelease : (Layout.releasedNames 4).map Layout.release =
      [0, 0, 0, 0, 1, 1, 1, 2, 3, 3, 3, 3, 3, 3, 3, 4] := by decide
  simp only [← names_cells w, cells, List.map_cons, List.map_nil, List.cons.injEq, and_true]
    at hrelease
  simp only [cells, trim, List.map_cons, List.map_nil, hrelease, Nat.zero_le, if_true,
    List.cons.injEq, Prod.mk.injEq, true_and, and_true]
  and_intros <;> split <;> rfl

theorem cell_trim {name : String} (hname : name ∈ Layout.releasedNames 4) :
    (w.trim v).cell name =
      if Layout.release name ≤ v then w.cell name else Layout.backfill name := by
  have hmem : name ∈ w.cells.map (·.1) := hname
  rw [cell, cells_trim, findCell_map_snd
    (f := fun key c => if Layout.release key ≤ v then c else Layout.backfill key) hmem]
  rfl

theorem cell_of_mem {name : String} {c : Cell} (h : (name, c) ∈ w.cells) : w.cell name = c := by
  have hnodup : (w.cells.map (·.1)).Nodup := Layout.nodup_releasedNames (v := 4) (by decide)
  unfold cell
  generalize w.cells = cells at h hnodup
  induction cells with
  | nil => cases h
  | cons d rest ih =>
      rw [List.map_cons, List.nodup_cons] at hnodup
      rw [findCell]
      rcases List.mem_cons.mp h with rfl | hmem
      · exact if_pos rfl
      · have hne : d.1 ≠ name := fun heq =>
          hnodup.1 (heq ▸ List.mem_map_of_mem (f := (·.1)) hmem)
        rw [if_neg hne]
        exact ih hmem hnodup.2

/-- Stored tags are the stored form of what is read of them. -/
theorem Valid.refusal? (h : w.Valid) : w.message.refusal? = none := by
  obtain ⟨tags, htags⟩ := h.tags
  have hencode : Tags.encode w.message.tags = .ok w.tags := by
    rw [message, Tags.decode_encode htags]
    exact htags
  have hevent : w.message.event = .message := rfl
  unfold Message.refusal?
  rw [if_neg (not_not_intro hevent), hencode]
  unfold message
  split_ifs
  · exact if_pos h.size
  · rfl

/-- What the columns up to the last say of an attachment. -/
theorem InRow.attached_iff {r : Row} (h : InRow 4 r w) :
    r.Attached ↔ w.attachment.name ≠ "" ∧ w.attachment.url ≠ "" := by
  have hname : r.cell "attachment_name" = .ofString w.attachment.name :=
    (h.cells _ (by decide)).trans (cell_of_mem (by simp [Written.cells]))
  have hurl : r.cell "attachment_url" = .ofString w.attachment.url :=
    (h.cells _ (by decide)).trans (cell_of_mem (by simp [Written.cells]))
  simp [Row.Attached, hname, hurl, Cell.ofString_ne_null, Cell.ofString_inj]

/-- A row with the flag for its attachment holds the entry. -/
theorem InRow.holds {r : Row} (h : InRow 4 r w) (hvalid : w.Valid)
    (hpresent : r.cell attachmentFlag = .ofBool r.Attached) : r.Holds w.entry := by
  have hcell {name : String} {c : Cell} (hname : name ∈ Layout.releasedNames 4)
      (hmem : (name, c) ∈ w.cells) : r.cell name = c :=
    (h.cells name hname).trans (cell_of_mem hmem)
  constructor
  case rowId => exact h.rowId
  case event => rfl
  case id => exact hcell (by decide) (by simp [Written.cells, entry, message])
  case time => exact hcell (by decide) (by simp [Written.cells, entry, message])
  case topic => exact hcell (by decide) (by simp [Written.cells, entry, message])
  case body => exact hcell (by decide) (by simp [Written.cells, entry, message])
  case title => exact hcell (by decide) (by simp [Written.cells, entry, message])
  case priority => exact hcell (by decide) (by simp [Written.cells, entry, message])
  case tags => exact ⟨w.tags, hcell (by decide) (by simp [Written.cells]), rfl⟩
  case click => exact hcell (by decide) (by simp [Written.cells, entry, message])
  case encoding => exact hcell (by decide) (by simp [Written.cells, entry, message])
  case published =>
    have hstate : w.state.isPublished = w.published := by
      unfold state DeliveryState.ofFlag
      cases w.published <;> rfl
    show r.cell "published" = .ofBool w.state.isPublished
    rw [hstate]
    exact hcell (by decide) (by simp [Written.cells])
  case present =>
    show r.cell attachmentFlag = .ofBool w.message.attachment.isSome
    rw [hpresent]
    unfold message
    by_cases hattached : r.Attached
    · rw [if_pos (h.attached_iff.mp hattached), decide_eq_true hattached]
      rfl
    · rw [if_neg fun hparts => hattached (h.attached_iff.mpr hparts), decide_eq_false hattached]
      rfl
  case attachment =>
    refine ⟨w.attachment, Int64.ofNat w.attachment.size.toNat, ?_, ?_⟩
    · constructor
      case name => exact hcell (by decide) (by simp [Written.cells])
      case mimeType => exact hcell (by decide) (by simp [Written.cells])
      case size => exact hcell (by decide) (by simp [Written.cells])
      case expires => exact hcell (by decide) (by simp [Written.cells])
      case url => exact hcell (by decide) (by simp [Written.cells])
      case owner => exact hcell (by decide) (by simp [Written.cells])
    · intro b hb
      have hb : (if w.attachment.name ≠ "" ∧ w.attachment.url ≠ "" then some w.attachment
          else none) = some b := hb
      exact ⟨(Option.some.inj (Option.ite_none_right_eq_some.mp hb).2).symm, hvalid.size, rfl⟩

/-- What a row of a release becomes in an upgrade. -/
theorem InRow.carried {r r' : Row} (h : InRow v r w) (hcarried : Carried v r r') :
    InRow 4 r' (w.trim v) where
  rowId := hcarried.id.trans h.rowId
  cells := by
    intro name hname
    obtain ⟨-, hadded, hflag⟩ := Layout.mem_added_release hname
    rw [cell_trim hname]
    by_cases hrelease : Layout.release name ≤ v
    · have hold := Layout.mem_releasedNames hrelease hadded
      rw [if_pos hrelease, hcarried.kept name hold, h.cells name hold]
    · rw [if_neg hrelease]
      exact hcarried.filled _ (Nat.lt_of_not_le hrelease) name hadded hflag

end Written

/-! ## Stores of a release -/

/-- A store as a release has written it: the columns are its own but for their order, and
each row holds one of what was written, no message twice. -/
structure WrittenBy (v : Nat) (db : Database) (t : Table) (ws : List Written) : Prop where
  store : InLayout v db t
  columns : (t.columns.map Column.shape).Perm ((Layout.released v).map Column.shape)
  rows : List.Forall₂ (Written.InRow v) t.rows ws
  valid : ∀ w ∈ ws, w.Valid
  distinct : (ws.map (·.id)).Nodup

/-- The entries that a store of a release comes to have. -/
def Written.entries (v : Nat) (ws : List Written) : Contents := ws.map fun w => (w.trim v).entry

section Upgrades

variable {v : Nat} {db : Database} {t : Table} {ws : List Written}

/-- Rows that come along hold the entries. -/
theorem forall₂_holds {rows rows' : List Row} (hrows : List.Forall₂ (Written.InRow v) rows ws)
    (hcarried : List.Forall₂ (Carried v) rows rows') (hv : v < Layout.currentVersion)
    (hvalid : ∀ w ∈ ws, w.Valid) : List.Forall₂ Row.Holds rows' (Written.entries v ws) := by
  induction hrows generalizing rows' with
  | nil =>
      cases hcarried
      exact .nil
  | cons hrow _ ih =>
      obtain ⟨hw, hvalid⟩ := List.forall_mem_cons.mp hvalid
      cases hcarried with
      | cons hr hrest =>
          exact .cons ((hrow.carried hr).holds (hw.trim v) (hr.present hv)) (ih hrest hvalid)

theorem WrittenBy.distinct_entries (h : WrittenBy v db t ws) :
    Contents.Distinct (Written.entries v ws) := by
  have hids : (Written.entries v ws).map (·.message.id) = ws.map (·.id) := by
    unfold Written.entries
    rw [List.map_map]
    rfl
  unfold Contents.Distinct
  rw [hids]
  exact h.distinct

/-- A store whose columns are those of a release is upgraded to the current columns, and
its rows come along. -/
theorem InLayout.upgraded (h : InLayout v db t) (hv : v < Layout.currentVersion)
    (hshape : (t.columns.map Column.shape).Perm ((Layout.released v).map Column.shape)) :
    (ensureCurrent .granted db).result = .ok Layout.currentVersion ∧
      ∃ u, (ensureCurrent .granted db).database.table? messagesTable = some u ∧ u.IsCurrent ∧
        List.Forall₂ (Carried v) t.rows u.rows := by
  obtain ⟨after, u, hclimbs, hafter, hcolumns, hrows, -⟩ := h.climbs (Nat.le_of_lt hv)
  obtain ⟨hresult, hdatabase⟩ := ensureCurrent_of_climbs h (Nat.le_of_lt hv) hclimbs
  have hcurrent : u.IsCurrent := by
    have hall : ∀ v < 5, ((Layout.released v ++ columnsFrom v).map Column.shape).Perm
        (Layout.current.map Column.shape) := by decide
    have hperm := hall v hv
    rw [List.map_append] at hperm
    unfold Table.IsCurrent
    rw [hcolumns, List.map_append]
    exact (hshape.append_right _).trans hperm
  rw [hdatabase]
  exact ⟨hresult, u, hafter.messages, hcurrent, hrows⟩

/-- An upgraded store holds the entries of what was written, in the rows of that. -/
theorem WrittenBy.represents (h : WrittenBy v db t ws) (hv : v < Layout.currentVersion) :
    (ensureCurrent .granted db).result = .ok Layout.currentVersion ∧
      Represents (ensureCurrent .granted db).database (Written.entries v ws) := by
  obtain ⟨hresult, u, hu, hcurrent, hrows⟩ := h.store.upgraded hv h.columns
  exact ⟨hresult, ⟨u, hu, hcurrent, forall₂_holds h.rows hrows hv h.valid⟩, h.distinct_entries⟩

/-- There is a clock by which the messages come in their states. -/
theorem WrittenBy.exists_timed (h : WrittenBy v db t ws) :
    ∃ now, Contents.Timed now (Written.entries v ws) := by
  have hclock : ∀ e ∈ Written.entries v ws, ∃ now, .atInsert e.message.time now = e.state := by
    intro e he
    obtain ⟨w, hw, rfl⟩ := List.mem_map.mp he
    exact ((h.valid w hw).trim v).exists_clock
  choose! now hnow using hclock
  exact ⟨now, hnow⟩

/-- An upgraded store answers as a new one does to which the same messages were added, as
long as neither has to put a row before the last. -/
theorem upgraded_like_fresh (h : WrittenBy v db t ws) (hv : v < Layout.currentVersion)
    (calls : List Store.Call)
    (hids : ∀ w ∈ ws, w.rowId + calls.countP Store.Call.isAdd ≤ Table.greatestId)
    (hrows : (ws.length : Int) + calls.countP Store.Call.isAdd ≤ Table.greatestId) :
    (ensureCurrent .granted db).result = .ok Layout.currentVersion ∧
      (∃ now, Contents.Timed now (Written.entries v ws)) ∧
      ∀ now, Contents.Timed now (Written.entries v ws) →
        ∃ fresh, Store.run (ensureCurrent .granted .empty).database
            (Contents.adds now (Written.entries v ws)) = (ws.map fun _ => .ok .stored, fresh) ∧
          (Store.run (ensureCurrent .granted db).database calls).1 =
            (Store.run fresh calls).1 := by
  obtain ⟨hresult, hupgraded⟩ := h.represents hv
  refine ⟨hresult, h.exists_timed, ?_⟩
  intro now hnow
  have hrefusal : ∀ e ∈ Written.entries v ws, e.message.refusal? = none := by
    intro e he
    obtain ⟨w, hw, rfl⟩ := List.mem_map.mp he
    exact ((h.valid w hw).trim v).refusal?
  have hlength : (Written.entries v ws).length = ws.length := List.length_map _
  obtain ⟨fresh, es, hrun, hfresh, halike, hroom⟩ :=
    represents_adds (hlength ▸ hrows) h.distinct_entries hrefusal hnow
  have hroom' : Contents.Room (calls.countP Store.Call.isAdd) (Written.entries v ws) := by
    refine ⟨by omega, ?_⟩
    intro e he
    obtain ⟨w, hw, rfl⟩ := List.mem_map.mp he
    exact hids w hw
  have hstored : ((Written.entries v ws).map fun _ => Except.ok Store.Reply.stored) =
      ws.map fun _ => (.ok .stored : Except StoreError Store.Reply) := List.map_map
  rw [hstored] at hrun
  refine ⟨fresh, hrun, ?_⟩
  rw [(hupgraded.run calls).1, (hfresh.run calls).1]
  exact (halike.run hroom hroom').symm

end Upgrades

/-- What of an attachment is left that has lost its name. -/
def leftover : Written :=
  { rowId := 3, id := "a", time := 7, topic := "t", body := "x", title := "", priority := 4
    tags := "u,v", published := false, click := "", encoding := ""
    attachment :=
      { name := "", mimeType := "", size := 9, expires := 8, url := "u", owner := "o" } }

/-- A store of version 4 with such a message. -/
def leftoverStore : List Statement :=
  .createTable messagesTable (Layout.released 4) ::
    .createIndex topicIndex messagesTable "topic" ::
    .insert messagesTable (("rowid", .integer 3) :: leftover.cells) :: recordVersion 4

theorem writtenBy_leftoverStore : ∃ db t, transaction .granted leftoverStore .empty = .ok db ∧
    WrittenBy 4 db t [leftover] := by
  refine ⟨_, _, rfl, ⟨rfl, ?_, rfl, ?_, ?_⟩, ?_, ?_, ?_, ?_⟩
  · unfold Table.HasLayout
    decide
  · intro u hu
    cases hu
    exact ⟨rfl, rfl⟩
  · intro hnone
    cases hnone
  · decide
  · refine .cons ⟨rfl, ?_⟩ .nil
    decide
  · intro w hw
    rw [List.mem_singleton.mp hw]
    exact ⟨⟨["u", "v"], rfl⟩, by decide, fun _ => by decide⟩
  · decide

/-- The attachment does not count, before and after another message is added. -/
theorem upgraded_like_fresh_leftover : ∃ db t fresh,
    transaction .granted leftoverStore .empty = .ok db ∧ WrittenBy 4 db t [leftover] ∧
      Store.run (ensureCurrent .granted .empty).database
        (Contents.adds (fun _ => 5) (Written.entries 4 [leftover])) = ([.ok .stored], fresh) ∧
      (Store.run (ensureCurrent .granted db).database
        [.size "o" 6, .expired 10, .add leftover.message 1, .mark "a", .total]).1 =
      (Store.run fresh
        [.size "o" 6, .expired 10, .add leftover.message 1, .mark "a", .total]).1 := by
  obtain ⟨db, t, hdb, hwritten⟩ := writtenBy_leftoverStore
  obtain ⟨-, -, hrun⟩ := upgraded_like_fresh hwritten (by decide)
    [.size "o" 6, .expired 10, .add leftover.message 1, .mark "a", .total]
    (by decide) (by decide)
  obtain ⟨fresh, hfresh, hsame⟩ := hrun (fun _ => 5) (by unfold Contents.Timed; decide)
  exact ⟨db, t, fresh, hdb, hwritten, hfresh, hsame⟩

/-! ## Without room -/

/-- A message in the last row that there can be. -/
def lastWritten : Written :=
  { rowId := 9223372036854775807, id := "a", time := 5, topic := "t", body := "old", title := ""
    priority := 0, tags := "", published := true, click := "", attachment := .blank
    encoding := "" }

/-- A store of version 0 with that message. -/
def fullStore : List Statement :=
  [.createTable messagesTable (Layout.released 0),
    .createIndex topicIndex messagesTable "topic",
    .insert messagesTable (("rowid", .integer 9223372036854775807) :: lastWritten.cells.take 4)]

theorem writtenBy_fullStore : ∃ db t, transaction .granted fullStore .empty = .ok db ∧
    WrittenBy 0 db t [lastWritten] := by
  refine ⟨_, _, rfl, ⟨rfl, ?_, rfl, ?_, fun _ => rfl⟩, ?_, ?_, ?_, ?_⟩
  · unfold Table.HasLayout
    decide
  · intro u hu
    cases hu
  · decide
  · refine .cons ⟨rfl, ?_⟩ .nil
    decide
  · intro w hw
    rw [List.mem_singleton.mp hw]
    exact ⟨⟨[], rfl⟩, by decide, fun hpublished => nomatch hpublished⟩
  · decide

/-- A message of the same time comes behind it in a new store, but not in the upgraded one:
in that there is no row behind it. -/
theorem not_alike_without_room : ∃ db t fresh,
    transaction .granted fullStore .empty = .ok db ∧ WrittenBy 0 db t [lastWritten] ∧
      (ensureCurrent .granted db).result = .ok Layout.currentVersion ∧
      Contents.Timed (fun _ => 10) (Written.entries 0 [lastWritten]) ∧
      Store.run (ensureCurrent .granted .empty).database
        (Contents.adds (fun _ => 10) (Written.entries 0 [lastWritten])) =
          ([.ok .stored], fresh) ∧
      (Store.run (ensureCurrent .granted db).database
        [.add { lastWritten.message with id := "b" } 10, .since "t" .all true]).1 =
        [.ok .stored, .ok (.messages [{ lastWritten.message with id := "b" },
          lastWritten.message])] ∧
      (Store.run fresh [.add { lastWritten.message with id := "b" } 10, .since "t" .all true]).1 =
        [.ok .stored, .ok (.messages [lastWritten.message,
          { lastWritten.message with id := "b" }])] := by
  obtain ⟨db, t, hdb, hwritten⟩ := writtenBy_fullStore
  obtain ⟨hresult, hupgraded⟩ := hwritten.represents (by decide)
  obtain ⟨hstored, hfresh⟩ :=
    represents_fresh.run (Contents.adds (fun _ => 10) (Written.entries 0 [lastWritten]))
  generalize Store.run _ (Contents.adds _ _) = run at hstored hfresh ⊢
  obtain ⟨answers, fresh⟩ := run
  obtain rfl : answers = [.ok .stored] := hstored
  refine ⟨db, t, fresh, hdb, hwritten, hresult, ?_, rfl, ?_, ?_⟩
  · unfold Contents.Timed
    decide
  · rw [(hupgraded.run _).1]
    rfl
  · rw [(hfresh.run _).1]
    rfl

end MessageCache
