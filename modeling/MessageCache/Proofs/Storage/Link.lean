/-
# A link and its file

What one link to a file goes through, if it is alone with the file and the name of the file
says nothing but where it is.  The link works on the file itself (`Directly`) until
write-ahead logging is on, and from then on with a log (`Logged`).  Before each statement it
gets ready, and then it reads, with every page as it is expected to be:

    Directly, Logged  ──reach──▸  Directly, or Logged if logging is on      (`Leads.reach`)

Either way the database that it leads to is the same one, and can be changed
(`Ready.access_eq`).  No directory is lost on the way (`keeps`).

That nothing stands where the journal, the log and its index are put is part of what is asked
for: a directory in the place of the index makes everything about the log readable and
nothing writable.
-/
import MessageCache.Proofs.Storage.Files

namespace MessageCache

/-! ## The states of a link -/

namespace FileLink

/-- A link as a path alone describes it. -/
structure IsPlain (l : FileLink) (p : Path) : Prop where
  path : l.path = p
  fileSystem : l.fileSystem = .standard
  writing : l.readOnly = false
  mutable : l.immutable = false
  locking : l.unlocked = false
  indexing : l.indexReadOnly = false

/-- What the link remembers of the file is what is there, if the stamp is the same. -/
def Remembers (l : FileLink) (s : Files) : Prop :=
  ∀ r db wal, l.read = some r → s.disk.content? l.path = some (.database db wal) →
    db.stamp = r.1 → r.2 = .database db wal

/-- The link works on the file itself, where there is this database; all directories of `d`
are still there. -/
structure Directly (d : Disk) (p : Path) (l : FileLink) (s : Files) (db : Database) : Prop where
  plain : l.IsPlain p
  detached : l.attached = false
  unindexed : l.indexed = false
  remembers : l.Remembers s
  rests : s.Rests p
  holds : s.Holds p db
  keeps : d.Keeps s.disk

/-- The link works with a log. -/
structure Logged (d : Disk) (p : Path) (l : FileLink) (s : Files) (db : Database) : Prop where
  plain : l.IsPlain p
  attached : l.attached = true
  indexed : l.indexed = true
  unread : l.read = none
  familiar : l.memory.strange = []
  logs : s.Logs p
  holds : s.HoldsLogged p db
  keeps : d.Keeps s.disk

/-- The link leads to this database. -/
inductive Leads (d : Disk) (p : Path) (l : FileLink) (s : Files) (db : Database) : Prop
  | directly (h : l.Directly d p s db) : Leads d p l s db
  | logged (h : l.Logged d p s db) : Leads d p l s db

/-- The link leads to this database, and a statement can be carried out. -/
inductive Ready (d : Disk) (p : Path) (l : FileLink) (s : Files) (db : Database) : Prop
  | directly (h : l.Directly d p s db) (hwal : l.walOn s = false) : Ready d p l s db
  | logged (h : l.Logged d p s db) : Ready d p l s db

variable {d : Disk} {p : Path} {l : FileLink} {s : Files} {db : Database} {wal : Bool}

namespace IsPlain

/-- What the link has read, and whether it works with a log, is another matter. -/
theorem reading (h : l.IsPlain p) (read : Option (Database.Stamp × FileContent))
    (attached indexed : Bool) (memory : Memory) :
    IsPlain { l with read, attached, indexed, memory } p :=
  ⟨h.path, h.fileSystem, h.writing, h.mutable, h.locking, h.indexing⟩

theorem sharing (h : l.IsPlain p) : l.sharing = .full := by
  unfold FileLink.sharing
  rw [h.locking, h.fileSystem]
  rfl

theorem isCounted (h : l.IsPlain p) : l.isCounted = true := by
  unfold FileLink.isCounted
  rw [h.fileSystem]

theorem journal (h : l.IsPlain p) : l.journal = p.beside "-journal" := by
  rw [FileLink.journal, h.path]

theorem log (h : l.IsPlain p) : l.log = p.beside "-wal" := by rw [FileLink.log, h.path]

theorem index (h : l.IsPlain p) : l.index = p.beside "-shm" := by rw [FileLink.index, h.path]

theorem shutOut (h : l.IsPlain p) (s : Files) : l.shutOut s = s := by
  unfold FileLink.shutOut
  rw [h.sharing]
  rfl

theorem lock (h : l.IsPlain p) (s : Files) : l.lock s = .ok s := by
  unfold FileLink.lock
  rw [h.sharing, h.shutOut]
  simp

theorem settle (h : l.IsPlain p) (hjournal : s.disk.node (p.beside "-journal") = none) :
    l.settle s = .ok s := by
  unfold FileLink.settle mayBeWritten
  rw [h.sharing, h.fileSystem, h.journal, hjournal]
  simp

theorem isBlank_iff (h : l.IsPlain p) : l.isBlank s = true ↔
    (∀ c, s.disk.node p ≠ some (.file c)) ∨
      ∃ b, s.disk.node p = some (.file (.text b)) ∧ b.length ≤ mostBlank := by
  unfold isBlank Disk.content?
  rw [h.path]
  cases s.disk.node p with
  | none => simp
  | some n =>
      cases n with
      | directory => simp
      | file c => cases c <;> simp

end IsPlain

/-! ## On the file itself -/

theorem Remembers.of_unread (h : l.read = none) : l.Remembers s := by
  intro r db wal hr
  rw [h] at hr
  cases hr

/-- What the link takes for the content of the file is the content. -/
theorem Remembers.content?_eq (h : l.Remembers s) : l.content? s = s.disk.content? l.path := by
  unfold content?
  split
  · rename_i db wal stamp content hfile hread
    rw [hfile]
    split_ifs with hstamp
    · exact congrArg some (h _ _ _ hread hfile hstamp)
    · rfl
  · rfl

theorem Remembers.refresh (h : l.Remembers s) : (l.refresh s).Remembers s := by
  unfold FileLink.refresh
  split
  · rename_i db wal hfile
    split_ifs with hread
    · exact h
    · intro r db' wal' hr hfile' hstamp
      cases hr
      exact Option.some.inj (hfile.symm.trans hfile')
  · rename_i hfile
    have hnone : ∀ db wal, s.disk.content? l.path ≠ some (.database db wal) := hfile
    split_ifs
    · intro r db wal _ hfile' _
      exact absurd hfile' (hnone db wal)
    · intro r db wal _ hfile' _
      exact absurd hfile' (hnone db wal)

theorem IsPlain.refresh (h : l.IsPlain p) (s : Files) : (l.refresh s).IsPlain p := by
  unfold FileLink.refresh
  split
  · split_ifs
    · exact h
    · exact h.reading _ _ _ _
  · split_ifs
    · exact h.reading _ _ _ _
    · exact h.reading _ _ _ _

theorem refresh_attached (l : FileLink) (s : Files) :
    (l.refresh s).attached = l.attached ∧ (l.refresh s).indexed = l.indexed := by
  unfold FileLink.refresh
  split
  · split_ifs <;> exact ⟨rfl, rfl⟩
  · split_ifs <;> exact ⟨rfl, rfl⟩

namespace Directly

theorem refresh (h : l.Directly d p s db) : (l.refresh s).Directly d p s db where
  plain := h.plain.refresh s
  detached := (refresh_attached l s).1.trans h.detached
  unindexed := (refresh_attached l s).2.trans h.unindexed
  remembers := h.remembers.refresh
  rests := h.rests
  holds := h.holds
  keeps := h.keeps

theorem content?_eq (h : l.Directly d p s db) : l.content? s = s.disk.content? p := by
  rw [h.remembers.content?_eq, h.plain.path]

theorem database_eq (h : l.Directly d p s db) : l.database s = .ok db := by
  unfold FileLink.database
  rw [h.detached, if_neg Bool.false_ne_true, stored, h.content?_eq]
  unfold Disk.content?
  cases h.holds with
  | missing hnode =>
      rw [hnode]
      exact if_pos (h.plain.isBlank_iff.mpr (.inl (by rw [hnode]; nofun)))
  | blank hnode hb =>
      rw [hnode]
      exact if_pos (h.plain.isBlank_iff.mpr (.inr ⟨_, hnode, hb⟩))
  | database hnode => rw [hnode]

/-- Logging is off unless the file is a database that says it is on. -/
theorem file_of_walOn (h : l.Directly d p s db) (hwal : l.walOn s = true) :
    s.disk.node p = some (.file (.database db true)) := by
  unfold walOn at hwal
  rw [h.content?_eq] at hwal
  unfold Disk.content? at hwal
  cases h.holds with
  | missing hnode =>
      rw [hnode] at hwal
      cases hwal
  | blank hnode hb =>
      rw [hnode] at hwal
      cases hwal
  | @database _ wal hnode =>
      rw [hnode] at hwal
      rw [hnode, show wal = true from hwal]

end Directly

/-! ## Going over to the log -/

theorem Directly.lostFirst?_eq (h : l.Directly d p s db) : l.lostFirst? s = none := by
  unfold lostFirst?
  rw [h.plain.path]
  simp only [h.rests.readers, if_true]
  split <;> rfl

/-- The link has opened an empty log, which it needs an index of. -/
structure Entering (d : Disk) (p : Path) (l : FileLink) (s : Files) (db : Database) : Prop where
  plain : l.IsPlain p
  attached : l.attached = true
  unread : l.read = none
  familiar : l.memory.strange = []
  file : s.disk.node p = some (.file (.database db true))
  journal : s.disk.node (p.beside "-journal") = none
  log : s.disk.node (p.beside "-wal") = some (.file (.text []))
  index : s.disk.node (p.beside "-shm") = none
  users : (s.use p).users = 1
  readers : (s.use p).readers = 0
  shared : (s.use p).exclusive = false
  keeps : d.Keeps s.disk

theorem Entering.getIndex (h : l.Entering d p s db) :
    ∃ l' s', l.getIndex s = (.ok (), l', s') ∧ l'.Logged d p s' db := by
  have hnew : l.newIndex? s = some .inFile := by
    unfold newIndex?
    rw [h.plain.path, h.shared, h.plain.index, h.index, h.plain.indexing]
    rfl
  have hlogged : l.logged? s = none := by
    unfold logged? Disk.content?
    rw [h.plain.log, h.log]
  have htouch := Files.touch_of_none h.index
  refine ⟨{ l with indexed := true }, (s.setFile (p.beside "-shm") (.text [])).setUse p
    { s.use p with readers := 1, index := .inFile, changed := none }, ?_, ?_⟩
  · unfold FileLink.getIndex
    simp only [h.plain.path, h.readers, hnew, hlogged, h.plain.index, htouch]
    rfl
  · constructor
    case plain => exact h.plain.reading _ _ _ _
    case attached => exact h.attached
    case indexed => rfl
    case unread => exact h.unread
    case familiar => exact h.familiar
    case logs =>
      constructor
      case journal => simpa using h.journal
      case log => exact ⟨.text [], by simpa using h.log⟩
      case index => exact ⟨.text [], by simp⟩
      all_goals rw [Files.use_setUse]
      case users => exact h.users
      case shared => exact h.shared
    case holds =>
      refine .unchanged ?_ (by rw [Files.use_setUse])
      rw [Files.disk_setUse, Files.node_setFile, if_neg (Path.index_ne_self p).symm]
      exact h.file
    case keeps => exact h.keeps.trans (Files.keeps_setFile (by rw [h.index]; nofun) _)

theorem Directly.attach (h : l.Directly d p s db)
    (hfile : s.disk.node p = some (.file (.database db true))) :
    ∃ l' s', l.attach s = (.ok (), l', s') ∧ l'.Logged d p s' db := by
  obtain rfl := h.plain.path
  have hopen : (!l.sharing.allowsLog || s.disk.isDirectory l.log) = false := by
    unfold Disk.isDirectory
    rw [h.plain.sharing, h.plain.log, h.rests.log]
    rfl
  have htouch := Files.touch_of_none h.rests.log
  unfold FileLink.attach
  rw [hopen, if_neg Bool.false_ne_true]
  simp only [h.lostFirst?_eq, h.plain.log, htouch]
  refine Entering.getIndex ?_
  constructor
  case plain => exact h.plain.reading _ _ _ _
  case attached => rfl
  case unread => rfl
  case familiar => rfl
  case file =>
    rw [Files.disk_setUse, Files.node_setFile, if_neg (Path.log_ne_self l.path).symm]
    exact hfile
  case journal => simpa using h.rests.journal
  case log => simp
  case index => simpa using h.rests.index
  case users => rw [Files.use_setUse, h.rests.users]
  case readers =>
    rw [Files.use_setUse]
    exact h.rests.readers
  case shared =>
    rw [Files.use_setUse]
    exact h.rests.shared
  case keeps => exact h.keeps.trans (Files.keeps_setFile (by rw [h.rests.log]; nofun) _)

theorem Directly.join (h : l.Directly d p s db) :
    ∃ l' s', l.join s = (.ok (), l', s') ∧ l'.Ready d p s' db := by
  have hlog : l.hasLog s = false := by
    unfold hasLog
    rw [h.plain.log, h.rests.log]
  unfold FileLink.join
  rw [hlog, if_neg Bool.false_ne_true]
  split_ifs with hwal
  · obtain ⟨l', s', hattach, hlogged⟩ := h.attach (h.file_of_walOn hwal)
    exact ⟨l', s', hattach, .logged hlogged⟩
  · exact ⟨l, s, rfl, .directly h (Bool.eq_false_iff.mpr hwal)⟩

theorem Leads.approach (h : l.Leads d p s db) :
    ∃ l' s', l.approach s = (.ok (), l', s') ∧ l'.Ready d p s' db := by
  unfold FileLink.approach
  cases h with
  | directly h =>
      rw [h.plain.mutable, h.unindexed, h.detached, Bool.or_false, if_neg Bool.false_ne_true,
        if_neg Bool.false_ne_true]
      simp only [h.plain.lock, h.plain.settle h.rests.journal]
      exact h.refresh.join
  | logged h =>
      rw [h.indexed, Bool.or_true, if_pos rfl]
      exact ⟨l, s, rfl, .logged h⟩

/-! ## With a log -/

namespace Logged

/-- The pages that the link has read do not matter. -/
theorem remember (h : l.Logged d p s db) {memory : Memory} (hstrange : memory.strange = []) :
    Logged d p { l with memory } s db where
  plain := h.plain.reading _ _ _ _
  attached := h.attached
  indexed := h.indexed
  unread := h.unread
  familiar := hstrange
  logs := h.logs
  holds := h.holds
  keeps := h.keeps

theorem file (h : l.Logged d p s db) :
    ∃ stored, s.disk.node p = some (.file (.database stored true)) := by
  cases h.holds with
  | unchanged hfile _ => exact ⟨_, hfile⟩
  | changed hfile _ _ _ => exact ⟨_, hfile⟩

theorem overwriting?_eq (h : l.Logged d p s db) : l.overwriting? s = none := by
  unfold overwriting? Disk.content?
  rw [h.plain.path, h.plain.log]
  cases h.holds with
  | unchanged _ hchanged => rw [hchanged]
  | changed _ hchanged _ hlog => rw [hchanged, hlog]

/-- There is something else on no page. -/
theorem pageFault?_eq (h : l.Logged d p s db) (page : PageName) : l.pageFault? s page = none := by
  obtain ⟨stored, hfile⟩ := h.file
  have hsound : l.isSound s = true := by
    unfold isSound Disk.content?
    rw [h.plain.path, hfile]
  unfold pageFault? lostFault?
  rw [hsound, h.overwriting?_eq, h.plain.path]
  cases h.holds with
  | unchanged _ hchanged =>
      rw [hchanged]
      rfl
  | @changed _ changes _ _ hchanged hlost _ =>
      rw [hchanged]
      by_cases hpage : page ∈ changes.pages
      · simp [Option.filter, hpage, hlost]
      · simp [Option.filter, hpage]

theorem renew (h : l.Logged d p s db) : (l.renew s).Logged d p s db := by
  unfold FileLink.renew
  simp only
  split_ifs
  · exact h
  · exact h.remember rfl

/-- Every page can be read. -/
theorem fetch (h : l.Logged d p s db) (pages : List PageName) :
    ∃ l', l.fetch s pages = (.ok (), l') ∧ l'.Logged d p s db := by
  induction pages generalizing l with
  | nil => exact ⟨l, rfl, h⟩
  | cons page rest ih =>
      unfold FileLink.fetch
      split_ifs with hknown hstrange
      · exact ih h
      · rw [h.familiar] at hstrange
        cases hstrange
      · simp only [h.pageFault?_eq]
        exact ih (h.remember h.familiar)

theorem database_eq (h : l.Logged d p s db) : l.database s = .ok db := by
  unfold FileLink.database Disk.content?
  rw [h.attached, if_pos rfl, h.plain.path]
  cases h.holds with
  | unchanged hfile hchanged => rw [hchanged, hfile]
  | changed _ hchanged _ _ => rw [hchanged]

end Logged

/-! ## Statements -/

theorem Leads.reach (h : l.Leads d p s db) :
    ∃ l' s', l.reach s = (.ok (), l', s') ∧ l'.Ready d p s' db := by
  obtain ⟨l', s', happroach, hready⟩ := h.approach
  unfold FileLink.reach
  rw [happroach]
  cases hready with
  | directly h hwal =>
      simp only [h.unindexed, if_neg Bool.false_ne_true]
      exact ⟨l', s', rfl, .directly h hwal⟩
  | logged h =>
      obtain ⟨l'', hfetch, hlogged⟩ := h.renew.fetch [.first]
      simp only [h.indexed, if_true, hfetch]
      exact ⟨l'', s', rfl, .logged hlogged⟩

theorem Ready.leads (h : l.Ready d p s db) : l.Leads d p s db := by
  cases h with
  | directly h _ => exact .directly h
  | logged h => exact .logged h

theorem Leads.plain (h : l.Leads d p s db) : l.IsPlain p := by
  cases h with
  | directly h => exact h.plain
  | logged h => exact h.plain

/-- Pages matter to a link with a log only, which can read them. -/
theorem Ready.fetch (h : l.Ready d p s db) {pages : List PageName}
    (hpages : l.indexed = false → pages = []) :
    ∃ l', l.fetch s pages = (.ok (), l') ∧ l'.Ready d p s db ∧ l'.indexed = l.indexed := by
  cases h with
  | directly h hwal =>
      rw [hpages h.unindexed]
      exact ⟨l, rfl, .directly h hwal, rfl⟩
  | logged h =>
      obtain ⟨l', hfetch, hlogged⟩ := h.fetch pages
      exact ⟨l', hfetch, .logged hlogged, hlogged.indexed.trans h.indexed.symm⟩

theorem Leads.database_eq (h : l.Leads d p s db) : l.database s = .ok db := by
  cases h with
  | directly h => exact h.database_eq
  | logged h => exact h.database_eq

theorem Ready.database_eq (h : l.Ready d p s db) : l.database s = .ok db := h.leads.database_eq

theorem Ready.access_eq (h : l.Ready d p s db) (hname : (p.beside "-journal").isNameable = true) :
    l.access s = .granted := by
  unfold FileLink.access canJournal isLockedOut isUnindexed Disk.isDirectory
  cases h with
  | directly h _ =>
      simp [h.plain.writing, h.plain.mutable, h.detached, h.plain.journal, h.plain.path, hname,
        h.rests.journal, h.rests.users]
  | logged h =>
      simp [h.plain.writing, h.plain.mutable, h.attached, h.plain.path, h.logs.indexed]

end FileLink

end MessageCache
