/-
# Stores of older releases, whatever wrote them

A release wrote messages of a certain kind (`WrittenBy`), but its layout takes more: tags
that are no stored form, scheduled messages from the beginning of time, or an attachment
that has no url and a negative size.  All that is asked here of a row is that it can be
read: integers and texts where the layout has them, a priority of one byte, a flag that is
zero or one, and no negative size where the row has an attachment (`Row.Legible`).  An
upgrade leaves such rows as they are and fills in the new columns, and so

    Legacy v db t       ⟹   the upgraded store represents some entries   (`Legacy.represents`)
    Historical v db t   ⟹   each row of it reads as a message            (`Historical.upgraded`)

The second asks nothing of the flag that says whether a message is published but that it is
an integer (`Row.Decodable`), and an id may be there twice.
-/
import MessageCache.Proofs.Schema.Release
import MessageCache.Proofs.Store.Decode

namespace MessageCache

/-! ## Rows that can be read -/

structure Row.Legible (v : Nat) (r : Row) : Prop where
  integers : ∀ name ∈ Layout.releasedNames v, name ∈ Layout.integerColumns →
    ∃ n, r.cell name = .integer n
  texts : ∀ name ∈ Layout.releasedNames v, name ∉ Layout.integerColumns →
    ∃ s, r.cell name = .ofString s
  priority : "priority" ∈ Layout.releasedNames v →
    ∃ p : UInt8, r.cell "priority" = .integer (Int64.ofNat p.toNat)
  published : "published" ∈ Layout.releasedNames v → ∃ b, r.cell "published" = .ofBool b
  size : "attachment_size" ∈ Layout.releasedNames v → r.Attached →
    ∃ n, 0 ≤ n ∧ r.cell "attachment_size" = .integer n

/-- A column of the layouts before the last is one that the row had, or a new one. -/
theorem Carried.cell_eq {v : Nat} {r r' : Row} (h : Carried v r r') {name : String}
    (hname : name ∈ Layout.releasedNames 4) :
    (Layout.release name ≤ v ∧ name ∈ Layout.releasedNames v ∧ r'.cell name = r.cell name) ∨
      (v < Layout.release name ∧ r'.cell name = Layout.backfill name) := by
  obtain ⟨-, hadded, hflag⟩ := Layout.mem_added_release hname
  rcases Nat.lt_or_ge v (Layout.release name) with hlt | hle
  · exact .inr ⟨hlt, h.filled _ hlt name hadded hflag⟩
  · have hold := Layout.mem_releasedNames hle hadded
    exact .inl ⟨hle, hold, h.kept name hold⟩

/-- The columns of an attachment came together, so an attachment that has a size in the
layout has had its name and its url all along. -/
theorem Carried.attached {v : Nat} {r r' : Row} (h : Carried v r r')
    (hv : Layout.release "attachment_size" ≤ v) (hr : r'.Attached) : r.Attached := by
  have hparts : ∀ name ∈ ["attachment_name", "attachment_url"], name ∈ Layout.releasedNames 4 ∧
      Layout.release name = Layout.release "attachment_size" := by decide
  intro name hname
  obtain ⟨hmem, hrelease⟩ := hparts name hname
  rcases h.cell_eq hmem with ⟨-, -, hcell⟩ | ⟨hlt, -⟩
  · rw [← hcell]
    exact hr name hname
  · omega

/-- A row of a version that reads as a message, whatever its state: integers, texts, a
priority of one byte, and no negative size where it has an attachment. -/
structure Row.Decodable (v : Nat) (r : Row) : Prop where
  integers : ∀ name ∈ Layout.releasedNames v, name ∈ Layout.integerColumns →
    (r.cell name).IsInteger
  texts : ∀ name ∈ Layout.releasedNames v, name ∉ Layout.integerColumns → (r.cell name).IsText
  priority : "priority" ∈ Layout.releasedNames v → (r.cell "priority").IsByte
  size : "attachment_size" ∈ Layout.releasedNames v → r.Attached →
    (r.cell "attachment_size").IsSize

/-- Rows stay decodable in an upgrade. -/
theorem Row.Decodable.carried {v : Nat} {r r' : Row} (h : r.Decodable v) (hr : Carried v r r') :
    r'.Decodable 4 := by
  constructor
  case integers =>
    intro name hname hinteger
    rcases hr.cell_eq hname with ⟨-, hold, hcell⟩ | ⟨-, hcell⟩
    · rw [hcell]
      exact h.integers name hold hinteger
    · rw [hcell, Layout.backfill, if_pos hinteger]
      split
      · exact ⟨1, rfl⟩
      · exact ⟨0, rfl⟩
  case texts =>
    intro name hname htext
    rcases hr.cell_eq hname with ⟨-, hold, hcell⟩ | ⟨-, hcell⟩
    · rw [hcell]
      exact h.texts name hold htext
    · have hpublished : name ≠ "published" := by
        rintro rfl
        exact htext (by decide)
      rw [hcell, Layout.backfill, if_neg hpublished, if_neg htext]
      exact ⟨"", rfl⟩
  case priority =>
    intro hname
    rcases hr.cell_eq hname with ⟨-, hold, hcell⟩ | ⟨-, hcell⟩
    · rw [hcell]
      exact h.priority hold
    · rw [hcell]
      exact ⟨0, rfl⟩
  case size =>
    intro hname hattached
    rcases hr.cell_eq hname with ⟨hv, hold, hcell⟩ | ⟨-, hcell⟩
    · rw [hcell]
      exact h.size hold (hr.attached hv hattached)
    · rw [hcell]
      exact ⟨0, rfl, Int64.le_refl _⟩

/-- A decodable row with the flag for its attachment is that of a message. -/
theorem Row.Decodable.isMessage {r : Row} (h : r.Decodable 4)
    (hpresent : r.cell attachmentFlag = .ofBool r.Attached) : r.IsMessage := by
  constructor
  case texts =>
    have hall : ∀ name ∈ ["id", "topic", "message", "title", "tags", "click", "attachment_name",
        "attachment_type", "attachment_url", "attachment_owner", "encoding"],
        name ∈ Layout.releasedNames 4 ∧ name ∉ Layout.integerColumns := by decide
    intro name hname
    exact h.texts name (hall name hname).1 (hall name hname).2
  case integers =>
    have hall : ∀ name ∈ ["time", "attachment_present", "attachment_size", "attachment_expires"],
        name = attachmentFlag ∨ name ∈ Layout.releasedNames 4 ∧ name ∈ Layout.integerColumns := by
      decide
    intro name hname
    rcases hall name hname with rfl | ⟨hmem, hinteger⟩
    · exact ⟨_, hpresent⟩
    · exact h.integers name hmem hinteger
  case priority => exact h.priority (by decide)
  case size =>
    intro hset
    refine h.size (by decide) ?_
    by_contra hnot
    exact hset (hpresent.trans (by rw [decide_eq_false hnot]; rfl))

/-- A row is legible iff it is decodable and its state is zero or one. -/
theorem Row.legible_iff {v : Nat} {r : Row} : r.Legible v ↔ r.Decodable v ∧
    ("published" ∈ Layout.releasedNames v → ∃ b, r.cell "published" = .ofBool b) := by
  constructor
  · intro h
    refine ⟨⟨h.integers, h.texts, h.priority, ?_⟩, h.published⟩
    intro hname hattached
    obtain ⟨n, hn, hcell⟩ := h.size hname hattached
    exact ⟨n, hcell, hn⟩
  · rintro ⟨h, hpublished⟩
    refine ⟨h.integers, h.texts, h.priority, hpublished, ?_⟩
    intro hname hattached
    obtain ⟨n, hcell, hn⟩ := h.size hname hattached
    exact ⟨n, hn, hcell⟩

/-- An upgraded legible row holds an entry. -/
theorem Row.Legible.holds_carried {v : Nat} {r r' : Row} (h : r.Legible v) (hr : Carried v r r')
    (hv : v < Layout.currentVersion) : ∃ e, r'.Holds e := by
  obtain ⟨hdecodable, hstate⟩ := Row.legible_iff.mp h
  have hpresent := hr.present hv
  refine ((hdecodable.carried hr).isMessage hpresent).holds ?_ ⟨_, hpresent⟩
  rcases hr.cell_eq (by decide : "published" ∈ Layout.releasedNames 4) with
    ⟨-, hold, hcell⟩ | ⟨-, hcell⟩
  · rw [hcell]
    exact hstate hold
  · rw [hcell]
    exact ⟨true, rfl⟩

/-! ## Stores that can be read -/

/-- A store in the layout of a release: its columns are those of the release but for their
order, each row can be read, and no id is there twice. -/
structure Legacy (v : Nat) (db : Database) (t : Table) : Prop where
  store : InLayout v db t
  columns : (t.columns.map Column.shape).Perm ((Layout.released v).map Column.shape)
  legible : ∀ r ∈ t.rows, r.Legible v
  distinct : (t.rows.map fun r => r.cell "id").Nodup

/-- A store in the layout of a release, each row of which is decodable. -/
structure Historical (v : Nat) (db : Database) (t : Table) : Prop where
  store : InLayout v db t
  columns : (t.columns.map Column.shape).Perm ((Layout.released v).map Column.shape)
  decodable : ∀ r ∈ t.rows, r.Decodable v

section Upgrades

variable {v : Nat} {db : Database} {t : Table}

/-- In an upgraded store each row reads as a message, and the flag for its attachment is
zero or one. -/
theorem Historical.upgraded (h : Historical v db t) (hv : v < Layout.currentVersion) :
    (ensureCurrent .granted db).result = .ok Layout.currentVersion ∧
      ∃ u, (ensureCurrent .granted db).database.table? messagesTable = some u ∧ u.IsCurrent ∧
        ∀ r ∈ u.rows, r.IsMessage ∧ ∃ b, r.cell attachmentFlag = .ofBool b := by
  obtain ⟨hresult, u, hu, hcurrent, hrows⟩ := h.store.upgraded hv h.columns
  refine ⟨hresult, u, hu, hcurrent, ?_⟩
  intro r' hr'
  obtain ⟨r, hr, hcarried⟩ := forall₂_exists_left hrows hr'
  have hpresent := hcarried.present hv
  exact ⟨((h.decodable r hr).carried hcarried).isMessage hpresent, _, hpresent⟩

/-- An upgraded store represents entries. -/
theorem Legacy.represents (h : Legacy v db t) (hv : v < Layout.currentVersion) :
    (ensureCurrent .granted db).result = .ok Layout.currentVersion ∧
      ∃ es, Represents (ensureCurrent .granted db).database es := by
  obtain ⟨hresult, u, hu, hcurrent, hrows⟩ := h.store.upgraded hv h.columns
  obtain ⟨es, hes⟩ : ∃ es, List.Forall₂ Row.Holds u.rows es := by
    refine exists_forall₂ fun r' hr' => ?_
    obtain ⟨r, hr, hcarried⟩ := forall₂_exists_left hrows hr'
    exact (h.legible r hr).holds_carried hcarried hv
  have hid : "id" ∈ Layout.releasedNames v := Layout.mem_releasedNames (Nat.zero_le v) (by decide)
  have hids : t.rows.map (fun r => r.cell "id") = es.map fun e => .ofString e.message.id := by
    rw [map_eq_of_forall₂ (fun r r' hr => (hr.kept "id" hid).symm) hrows]
    exact map_eq_of_forall₂ (fun r e he => he.id) hes
  have hdistinct : Contents.Distinct es := by
    have hcells := h.distinct
    rw [hids] at hcells
    refine List.Nodup.of_map Cell.ofString ?_
    rw [List.map_map]
    exact hcells
  exact ⟨hresult, es, ⟨u, hu, hcurrent, hes⟩, hdistinct⟩

end Upgrades

end MessageCache
