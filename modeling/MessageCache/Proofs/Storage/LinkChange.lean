/-
# What a link changes, and how it leaves

A link that is ready puts a changed database into the file or into the log, whichever it
works with, and leads to it then.  When it leaves, what is in the log goes into the file, and
the file is as any link would find it:

    Ready             ──store db──▸       leads to db, or nothing had to be written
    Ready             ──switchWalOn──▸    leads to the same tables, and logs
    Directly, Logged  ──release──▸        Rests, and the file holds the database
-/
import MessageCache.Proofs.Storage.Link

namespace MessageCache.FileLink

variable {d : Disk} {p : Path} {l : FileLink} {s : Files} {db : Database} {wal : Bool}

/-! ## Changes -/

/-- There is another count of changes in the file than the link has seen before. -/
theorem remembers_of_writes (hfile : s.disk.content? l.path = some (.database db wal))
    (hwrites : db.writes = l.writes + 1) : l.Remembers s := by
  intro r db' wal' hread hfile' hstamp
  cases hfile.symm.trans hfile'
  have hcount : db.writes = r.1.writes := congrArg Database.Stamp.writes hstamp
  unfold writes at hwrites
  rw [hread, hcount] at hwrites
  exact absurd hwrites (Nat.ne_of_lt (Nat.lt_succ_self _))

/-- There is no journal to be removed after a change. -/
theorem Directly.storeDirectly_eq (h : l.Directly d p s db) (after : Database) (wal : Bool) :
    l.storeDirectly s after wal =
      s.setFile p (.database { after with writes := l.writes + 1 } wal) := by
  obtain rfl := h.plain.path
  refine Files.removeFile_of_none ?_
  rw [h.plain.journal, Files.node_setFile, if_neg (Path.journal_ne_self l.path)]
  exact h.rests.journal

/-- A database that the link has put into the file is the one that it leads to. -/
theorem Directly.storeDirectly (h : l.Directly d p s db) (after : Database) (wal : Bool) :
    l.Directly d p (l.storeDirectly s after wal) { after with writes := l.writes + 1 } := by
  obtain rfl := h.plain.path
  rw [h.storeDirectly_eq]
  have hfile := Files.node_setFile_self s l.path
    (.database { after with writes := l.writes + 1 } wal)
  constructor
  case plain => exact h.plain
  case detached => exact h.detached
  case unindexed => exact h.unindexed
  case remembers =>
    have hcontent : (s.setFile l.path (.database { after with writes := l.writes + 1 }
        wal)).disk.content? l.path = some (.database { after with writes := l.writes + 1 } wal) := by
      unfold Disk.content?
      rw [hfile]
    exact remembers_of_writes hcontent rfl
  case rests => exact h.rests.setFile _
  case holds => exact .database hfile
  case keeps => exact h.keeps.trans (Files.keeps_setFile h.holds.not_directory _)

/-- Pages that are put into the log make up the database that the link leads to. -/
theorem Logged.storeLogged (h : l.Logged d p s db) (after : Database) (pages : List PageName) :
    ∃ n, l.Logged d p (l.storeLogged s after pages) { after with writes := n } := by
  obtain rfl := h.plain.path
  obtain ⟨stored, hfile⟩ := h.file
  obtain ⟨content, hlog⟩ := h.logs.log
  let changes := l.logging s after pages
  have hlost : changes.lost = [] := by
    have hbefore : ((s.use l.path).changed.map (·.lost)).getD [] = [] := by
      cases h.holds with
      | unchanged _ hchanged => rw [hchanged]; rfl
      | changed _ hchanged hlost _ => rw [hchanged]; exact hlost
    simp only [changes, logging, h.overwriting?_eq, Option.isSome_none, hbefore]
    rfl
  obtain ⟨n, hdatabase⟩ : ∃ n, changes.database = { after with writes := n } := by
    simp only [changes, logging]
    split_ifs
    · exact ⟨_, rfl⟩
    · exact ⟨after.writes, rfl⟩
  refine ⟨n, ?_⟩
  have hstored : l.storeLogged s after pages =
      (s.setUse l.path { s.use l.path with
        changed := some changes, commits := (s.use l.path).commits + 1 }).setFile
          (l.path.beside "-wal") (.log changes) := by
    unfold FileLink.storeLogged Disk.content?
    simp only [h.plain.log, hlog]
    rfl
  rw [hstored, ← hdatabase]
  constructor
  case plain => exact h.plain
  case attached => exact h.attached
  case indexed => exact h.indexed
  case unread => exact h.unread
  case familiar => exact h.familiar
  case logs =>
    constructor
    case journal => simpa using h.logs.journal
    case log => exact ⟨.log changes, by simp⟩
    case index =>
      obtain ⟨c, hindex⟩ := h.logs.index
      exact ⟨c, by simpa using hindex⟩
    all_goals rw [Files.use_setFile, Files.use_setUse]
    case users => exact h.logs.users
    case readers => exact h.logs.readers
    case shared => exact h.logs.shared
    case indexed => exact h.logs.indexed
  case holds =>
    have hkept := (Files.node_setFile (s.setUse l.path { s.use l.path with
        changed := some changes, commits := (s.use l.path).commits + 1 })
      (l.path.beside "-wal") (.log changes) l.path).trans (if_neg (Path.log_ne_self l.path).symm)
    refine .changed (hkept.trans hfile) ?_ hlost (Files.node_setFile_self ..)
    rw [Files.use_setFile, Files.use_setUse]
  case keeps =>
    refine h.keeps.trans (Disk.Keeps.set ?_ _)
    rw [hlog]
    nofun

/-- A changed database is stored, unless the link works with a log and none of the pages
that were written is as it was not before. -/
theorem Ready.store (h : l.Ready d p s db) (after : Database) (pages : List PageName) :
    (l.store s after pages = (l, s) ∧ l.indexed = true ∧
        ∀ page ∈ .first :: pages, db.differs after page = false) ∨
      ∃ l' s' n, l.store s after pages = (l', s') ∧
        l'.Leads d p s' { after with writes := n } := by
  unfold FileLink.store
  cases h with
  | directly h _ =>
      rw [h.detached, if_neg Bool.false_ne_true]
      exact .inr ⟨_, _, _, rfl, .directly (h.storeDirectly after _).refresh⟩
  | logged h =>
      rw [h.attached, if_pos rfl, h.database_eq]
      simp only
      split_ifs with hempty
      · refine .inl ⟨rfl, h.indexed, fun page hpage => Bool.eq_false_iff.mpr fun hdiffers => ?_⟩
        have hmem := List.mem_eraseDups.mpr (List.mem_filter.mpr ⟨hpage, hdiffers⟩)
        rw [List.isEmpty_iff.mp hempty] at hmem
        cases hmem
      · obtain ⟨n, hlogged⟩ := h.storeLogged after
          ((.first :: pages).filter (db.differs after)).eraseDups
        refine .inr ⟨_, _, n, rfl, .logged (hlogged.remember ?_)⟩
        exact h.familiar

/-- Logging is on from the next statement on. -/
theorem Ready.switchWalOn (h : l.Ready d p s db)
    (hname : (p.beside "-journal").isNameable = true) :
    ∃ s' after, l.switchWalOn s = .ok s' ∧ l.Leads d p s' after ∧ l.logs s' = true ∧
      ∃ n k, after = { db with pages := n, writes := k } := by
  have haccess := h.access_eq hname
  unfold FileLink.switchWalOn
  cases h with
  | directly h _ =>
      have hon : (l.attached || l.immutable || !l.sharing.allowsLog) = false := by
        rw [h.detached, h.plain.mutable, h.plain.sharing]
        rfl
      rw [hon, if_neg Bool.false_ne_true, h.database_eq]
      simp only [bind, Except.bind, haccess]
      have hstored := h.storeDirectly db.begun true
      refine ⟨_, _, rfl, .directly hstored, ?_, _, _, rfl⟩
      unfold logs walOn
      rw [hstored.content?_eq, h.storeDirectly_eq, h.plain.sharing, h.plain.mutable]
      unfold Disk.content?
      rw [Files.node_setFile_self]
      simp [Sharing.allowsLog]
  | logged h =>
      rw [h.attached]
      refine ⟨s, db, rfl, .logged h, ?_, _, _, rfl⟩
      unfold logs
      rw [h.attached]
      rfl

/-! ## Leaving -/

theorem Directly.release (h : l.Directly d p s db) :
    (l.release s).Rests p ∧ (l.release s).Holds p db ∧ d.Keeps (l.release s).disk := by
  obtain rfl := h.plain.path
  have hrelease : l.release s = s.setUse l.path ((s.use l.path).closed l.readOnly) := by
    unfold FileLink.release leave
    rw [h.detached, h.plain.isCounted]
    rfl
  rw [hrelease]
  refine ⟨⟨h.rests.journal, h.rests.log, h.rests.index, ?_, ?_, ?_⟩, h.holds.setUse _ _, h.keeps⟩
  · rw [Files.use_setUse]
    exact h.rests.users
  · rw [Files.use_setUse]
    exact h.rests.readers
  · rw [Files.use_setUse]
    unfold FileUse.closed
    rw [h.rests.shared]
    rfl

/-- What the link has put into the log goes into the file. -/
theorem Logged.checkpoint (h : l.Logged d p s db) :
    (l.checkpoint s).disk.node p = some (.file (.database db true)) ∧
      (l.checkpoint s).Logs p ∧ d.Keeps (l.checkpoint s).disk := by
  obtain rfl := h.plain.path
  have hlogs := h.logs
  unfold FileLink.checkpoint
  cases h.holds with
  | unchanged hfile hchanged =>
      rw [hchanged]
      exact ⟨hfile, hlogs, h.keeps⟩
  | @changed stored changes written hfile hchanged hlost hlog =>
      have hsound : l.isSound s = true := by
        unfold isSound Disk.content?
        rw [hfile]
      have hwal : l.walOn s = true := by
        unfold walOn content? Disk.content?
        rw [hfile, h.unread]
      rw [hchanged]
      simp only [hlost, hsound, hwal, Bool.or_true, if_true, List.not_mem_nil, if_false]
      refine ⟨Files.node_setFile_self .., ?_, ?_⟩
      · constructor
        case journal => simpa using hlogs.journal
        case log => simpa using hlogs.log
        case index => simpa using hlogs.index
        case users => exact hlogs.users
        case readers => exact hlogs.readers
        case shared => exact hlogs.shared
        case indexed => exact hlogs.indexed
      · exact h.keeps.trans (Files.keeps_setFile (by rw [hfile]; nofun) _)

/-- The log and its index go. -/
theorem IsPlain.removeLog (h : l.IsPlain p) (hlogs : s.Logs p) :
    (l.removeLog s).use = s.use ∧ s.disk.Keeps (l.removeLog s).disk ∧
      ∀ q, (l.removeLog s).disk.node q =
        if q = p.beside "-wal" ∨ q = p.beside "-shm" then none else s.disk.node q := by
  obtain rfl := h.path
  obtain ⟨c, hlog⟩ := hlogs.log
  obtain ⟨c', hindex⟩ := hlogs.index
  have hindex' : (s.removeFile (l.path.beside "-wal")).disk.node (l.path.beside "-shm") =
      some (.file c') := by
    rw [Files.node_removeFile hlog, if_neg (Path.index_ne_log l.path)]
    exact hindex
  have hremove : l.removeLog s =
      (s.removeFile (l.path.beside "-wal")).removeFile (l.path.beside "-shm") := by
    unfold FileLink.removeLog
    rw [hlogs.indexed, h.log, h.index]
    rfl
  rw [hremove]
  refine ⟨by simp, ?_, ?_⟩
  · exact (Files.keeps_removeFile s _).trans (Files.keeps_removeFile _ _)
  · intro q
    rw [Files.node_removeFile hindex', Files.node_removeFile hlog]
    split_ifs <;> simp_all

theorem Logged.release (h : l.Logged d p s db) :
    (l.release s).Rests p ∧ (l.release s).Holds p db ∧ d.Keeps (l.release s).disk := by
  obtain rfl := h.plain.path
  obtain ⟨hfile, hlogs, hkeeps⟩ := h.checkpoint
  obtain ⟨huse, hremoved, hnode⟩ := h.plain.removeLog hlogs
  have hclose : l.closeLog s = l.removeLog (l.checkpoint s) := by
    unfold closeLog isUnindexed
    rw [h.plain.writing, h.indexed, h.logs.indexed, h.overwriting?_eq]
    rfl
  have hleave : l.leave s = (l.removeLog (l.checkpoint s)).setUse l.path
      { (l.checkpoint s).use l.path with users := 0, readers := 0 } := by
    unfold FileLink.leave
    rw [h.attached, h.logs.users, h.plain.shutOut, hclose]
    simp only [Nat.lt_irrefl, if_false, huse, hlogs.users, hlogs.readers, h.indexed]
    rfl
  have hrelease : l.release s = (l.leave s).setUse l.path
      (((l.leave s).use l.path).closed l.readOnly) := by
    unfold FileLink.release
    rw [h.plain.isCounted]
    rfl
  rw [hrelease, hleave]
  refine ⟨⟨?_, ?_, ?_, ?_, ?_, ?_⟩, ?_, hkeeps.trans hremoved⟩
  · rw [Files.disk_setUse, Files.disk_setUse, hnode]
    simpa using hlogs.journal
  · rw [Files.disk_setUse, Files.disk_setUse, hnode, if_pos (.inl rfl)]
  · rw [Files.disk_setUse, Files.disk_setUse, hnode, if_pos (.inr rfl)]
  · rw [Files.use_setUse, Files.use_setUse]
    rfl
  · rw [Files.use_setUse, Files.use_setUse]
    rfl
  · rw [Files.use_setUse, Files.use_setUse]
    unfold FileUse.closed
    rw [hlogs.shared]
    rfl
  · have hkept := (hnode l.path).trans
      (if_neg (by simp [(Path.log_ne_self l.path).symm, (Path.index_ne_self l.path).symm]))
    exact .database (hkept.trans hfile)

/-- A link leaves the file as any link finds it. -/
theorem Leads.release (h : l.Leads d p s db) :
    (l.release s).Rests p ∧ (l.release s).Holds p db ∧ d.Keeps (l.release s).disk := by
  cases h with
  | directly h => exact h.release
  | logged h => exact h.release

end MessageCache.FileLink
