/-
# Views of a file

A view that looks through a plain link knows the tables that are there, or none
(`View.Through`).  So long as that holds, and while a statement does no more than its plan
says (`Plan.Fits`), it makes no difference what the view has known before or how the link
works: the statement is carried out on the database that the link leads to, and the tables
are then those that it has made of them (`View.Through.perform`).

The one thing to be seen about `Fits` is its last field.  With a log only the pages are
written that the plan names, and nothing is if none of them is another one than before;
there must be nothing to be written then.
-/
import MessageCache.Proofs.Storage.LinkChange
import MessageCache.Proofs.Table.Edition
import MessageCache.Storage.View

namespace MessageCache

section Views

variable {α : Type} {d : Disk} {p : Path} {s : Files} {db other : Database} {l : FileLink}
  {v : View} {plan : Plan} {f : WriteAccess → Database → Effect α}

/-! ## Tables that are known -/

/-- A view looks through a link, and the tables that it knows are those of a database. -/
structure View.Through (v : View) (l : FileLink) (db : Database) : Prop where
  place : v.place = .file l
  seen : v.seen = none
  known : ∀ known, v.outline = some known → known.table = db.outline.table

theorem Database.SameTables.outline (h : db.SameTables other) :
    other.outline.table = db.outline.table := by
  show (fun key => (other.table key).map _) = fun key => (db.table key).map _
  rw [h.table]

/-- A new view does not know anything. -/
theorem View.through_ofPlace (l : FileLink) (db : Database) :
    (View.ofPlace (.file l)).Through l db := ⟨rfl, rfl, nofun⟩

namespace View.Through

theorem sameTables (h : v.Through l db) (hsame : db.SameTables other) : v.Through l other where
  place := h.place
  seen := h.seen
  known k hk := (h.known k hk).trans hsame.outline.symm

/-- The view with another link, knowing nothing more. -/
theorem via (h : v.Through l db) (l' : FileLink) :
    View.Through { v with place := .file l' } l' db := ⟨rfl, h.seen, h.known⟩

/-- The view after it has forgotten the tables, or not. -/
theorem unknowingIf (h : v.Through l db) (undone : Bool) :
    View.Through (if undone then { v with outline := none } else v) l db := by
  split
  · exact ⟨h.place, h.seen, nofun⟩
  · exact h

end View.Through

/-! ## Plans -/

/-- A plan fits what a statement does to a database: there is nothing wrong with it, and
if there is a change then it shows on a page that the plan names. -/
structure Plan.Fits (plan : Plan) (f : WriteAccess → Database → Effect α) (db : Database) :
    Prop where
  flawless : plan.flaw = none
  check : ∀ known, known.table = db.outline.table → ∃ writes, plan.check known = .ok writes
  written : ∀ after, (f .granted db).changed = some after →
    (∃ writes, plan.check db = .ok writes) ∧
      ((∀ page ∈ .first :: plan.pages db, db.differs after page = false) → db.SameTables after)

/-! ## Statements -/

namespace View.Through

variable (hname : (p.beside "-journal").isNameable = true)
include hname

theorem look (h : v.Through l db) (hl : l.Leads d p s db) :
    ∃ v' l' s', v.look s = (.ok (.granted, db), v', s') ∧ v'.Through l' db ∧
      l'.Ready d p s' db := by
  obtain ⟨l', s', hreach, hready⟩ := hl.reach
  have hdatabase : View.database { v with place := .file l' } s' = .ok db := by
    unfold View.database
    rw [h.seen]
    exact hready.database_eq
  refine ⟨{ v with place := .file l', outline := some (v.outlineOf db) }, l', s', ?_, ?_, hready⟩
  · unfold View.look
    simp only [h.place, Place.reach, hreach, hdatabase, Place.access, hready.access_eq hname]
    rfl
  · refine ⟨rfl, h.seen, ?_⟩
    intro known hknown
    cases hknown
    unfold View.outlineOf
    cases ho : v.outline with
    | none => rfl
    | some old =>
        rw [Option.filter_some]
        split
        · exact h.known old ho
        · rfl

theorem prepare (h : v.Through l db) (hl : l.Leads d p s db) (hfits : plan.Fits f db) :
    ∃ v' l' s', v.prepare s plan = (.ok (.granted, db), v', s') ∧ v'.Through l' db ∧
      l'.Ready d p s' db := by
  obtain ⟨v', l', s', hlook, hthrough, hready⟩ := h.look hname hl
  refine ⟨v', l', s', ?_, hthrough, hready⟩
  unfold View.prepare
  rw [hfits.flawless]
  cases ho : v.outline with
  | none => exact hlook
  | some known =>
      obtain ⟨writes, hcheck⟩ := hfits.check known (h.known known ho)
      have hwriting : v.place.isReadOnly = false := by
        rw [h.place]
        show (l.readOnly || l.immutable) = false
        rw [hl.plain.writing, hl.plain.mutable]
        rfl
      simp only [View.prepareBy, hcheck, hwriting, Bool.and_false, hlook]
      rfl

omit hname in
/-- What a statement needs can be read. -/
theorem read (h : v.Through l db) (hl : l.Ready d p s db) (plan : Plan) :
    ∃ v' l', v.read s db plan (v.pagesFor db plan) = (.ok db, v') ∧ v'.Through l' db ∧
      l'.Ready d p s db ∧ l'.indexed = l.indexed := by
  have hpages : l.indexed = false → (v.pagesFor db plan).filter db.hasPage = [] := by
    intro hl
    unfold View.pagesFor
    rw [h.place]
    simp [Place.isPaged, hl]
  obtain ⟨l', hfetch, hready, hindexed⟩ := hl.fetch hpages
  refine ⟨{ v with place := .file l' }, l', ?_, h.via l', hready, hindexed⟩
  unfold View.read
  simp only [h.place, Place.fetch, hfetch, View.find, h.seen]

omit hname in
/-- What a statement has changed is there, or there was nothing to be written. -/
theorem store (h : v.Through l db) (hl : l.Ready d p s db) (after : Database)
    (pages : List PageName) (hsame : l.indexed = true →
      (∀ page ∈ .first :: pages, db.differs after page = false) → db.SameTables after) :
    ∃ v' l' s' db', v.store s after pages = (v', s') ∧ v'.Through l' db' ∧ l'.Leads d p s' db' ∧
      after.SameTables db' := by
  unfold View.store
  rw [h.place]
  simp only [Place.store]
  rcases hl.store after pages with ⟨hstore, hindexed, hpages⟩ | ⟨l', s', n, hstore, hleads⟩
  · rw [hstore]
    have hafter := hsame hindexed hpages
    refine ⟨_, l, s, db, rfl, ⟨rfl, h.seen, ?_⟩, hl.leads, hafter.symm⟩
    intro known hknown
    cases hknown
    exact hafter.outline
  · rw [hstore]
    refine ⟨_, l', s', _, rfl, ⟨rfl, h.seen, ?_⟩, hleads, .writes after n⟩
    intro known hknown
    cases hknown
    rfl

/-- A statement is carried out on the database that the view shows. -/
theorem perform (h : v.Through l db) (hl : l.Leads d p s db) (hfits : plan.Fits f db) :
    ∃ v' l' s' db', v.perform s plan f = (.ok (f .granted db).answer, v', s') ∧
      v'.Through l' db' ∧ l'.Leads d p s' db' ∧
      ((f .granted db).changed.getD db).SameTables db' := by
  obtain ⟨v₁, l₁, s₁, hprepare, hthrough₁, hready₁⟩ := h.prepare hname hl hfits
  obtain ⟨v₂, l₂, hread, hthrough₂, hready₂, hindexed⟩ := hthrough₁.read hready₁ plan
  cases hchanged : (f .granted db).changed with
  | none =>
      refine ⟨_, l₂, s₁, db, ?_, hthrough₂.unknowingIf (f .granted db).undone, hready₂.leads,
        .refl db⟩
      unfold View.perform
      simp only [hprepare, hread, hchanged]
  | some after =>
      obtain ⟨⟨writes, hcheck⟩, hwritten⟩ := hfits.written after hchanged
      have hplan : l₂.indexed = true → v₁.pagesFor db plan = plan.pages db := by
        intro hl₂
        unfold View.pagesFor
        rw [hthrough₁.place, hcheck]
        simp [Place.isPaged, ← hindexed, hl₂]
      obtain ⟨v₃, l₃, s₃, db', hstore, hthrough₃, hleads, hsame⟩ :=
        hthrough₂.store hready₂ after (v₁.pagesFor db plan) fun hl₂ hpages =>
          hwritten (hplan hl₂ ▸ hpages)
      refine ⟨_, l₃, s₃, db', ?_, hthrough₃.unknowingIf (f .granted db).undone, hleads, hsame⟩
      unfold View.perform
      simp only [hprepare, hread, hchanged, hstore]

/-- Logging is switched on where the view leads. -/
theorem switchWalOn (h : v.Through l db) (hl : l.Leads d p s db) :
    ∃ l' s₁ s' db', v.place.reach s = (.ok (), .file l', s₁) ∧
      (Place.file l').requestWal s₁ = .ok s' ∧
      View.Through { v with place := .file l' } l' db' ∧ l'.Leads d p s' db' ∧
      l'.logs s' = true ∧ db.SameTables db' := by
  obtain ⟨l', s₁, hreach, hready⟩ := hl.reach
  obtain ⟨s', after, hswitch, hleads, hlogs, n, k, rfl⟩ := hready.switchWalOn hname
  have hsame : db.SameTables { db with pages := n, writes := k } := ⟨rfl, rfl, rfl⟩
  refine ⟨l', s₁, s', _, ?_, hswitch, (h.via l').sameTables hsame, hleads, hlogs, hsame⟩
  rw [h.place]
  simp only [Place.reach, hreach]

/-- Write-ahead logging is to be had, and no table is another one for that. -/
theorem requestWal (h : v.Through l db) (hl : l.Leads d p s db) :
    ∃ v' l' s' db', v.requestWal s = (.ok (), v', s') ∧ v'.Through l' db' ∧
      l'.Leads d p s' db' ∧ l'.logs s' = true ∧ db.SameTables db' := by
  unfold View.requestWal
  cases hknown : v.outline.isSome with
  | true =>
      obtain ⟨l', s₁, s', db', hreach, hwal, hrest⟩ := h.switchWalOn hname hl
      simp only [if_true, hreach, hwal]
      exact ⟨_, l', s', db', rfl, hrest⟩
  | false =>
      obtain ⟨v₁, l₁, s₁, hlook, hthrough, hready⟩ := h.look hname hl
      obtain ⟨l', s₂, s', db', hreach, hwal, hrest⟩ :=
        hthrough.switchWalOn hname hready.leads
      simp only [Bool.false_eq_true, if_false, hlook, Except.map, hreach, hwal]
      exact ⟨_, l', s', db', rfl, hrest⟩

end View.Through

end Views

end MessageCache
