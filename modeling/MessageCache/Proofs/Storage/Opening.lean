/-
# Opening a cache in a file

What has to be there for a cache to be opened is a way to its file (`Disk.Locates`); that is
still there as long as the directories are.  Then any file that nobody works with is opened,
whether write-ahead logging is asked for or not, if it holds nothing, or a store in some
layout.  The store is then a current one, and the view leads to it (`openCache_file`).

    a plain name                 is a path, and nothing else          (`Channel.connect_plain`)
    the path                     means the same file every time       (`Disk.Locates`)
    a file at rest               is reached by a link of its own      (`Place.openFile_plain`)
    with or without logging      the tables are the same              (`Opening.ofConnection_file`)
-/
import MessageCache.Opening
import MessageCache.Proofs.Schema.Opened
import MessageCache.Proofs.Storage.View
import MessageCache.Proofs.Storage.Way

namespace MessageCache

/-! ## Names -/

/-- The name is that of a file: nothing else is meant by it. -/
structure IsPlainName (file : String) : Prop where
  nonempty : Utf8.bytes file ≠ []
  zeroless : (Utf8.bytes file).findIdx? (· = 0) = none
  path : Location.scheme.isPrefixOf (Utf8.bytes file) = false
  stored : Utf8.bytes file ≠ Utf8.bytes Place.memoryName

/-- The name of a file leads to a path, past directories that are all there, and as long as
they are it leads there. -/
structure Disk.Locates (d : Disk) (file : String) (p : Path) : Prop where
  plain : IsPlainName file
  nameable : (p.beside "-journal").isNameable = true
  parent : d.node p.dropLast = some .directory
  again : ∀ d', d.Keeps d' →
    d'.makeDirectories (Route.ofBytes (Utf8.bytes file)).parent = (d', .ok ()) ∧
      Place.pathOf? d' (Utf8.bytes file) = some p

section Opening

variable {d : Disk} {p : Path} {file : String} {s : Files} {db other : Database} {l : FileLink}
  {v : View}

/-! ## Upgrades in view -/

/-- What bringing a store to the current layout does to it. -/
def upgradeEffect (access : WriteAccess) (db : Database) : Effect Upgrade :=
  let u := ensureCurrent access db
  { answer := u, changed := if u.changed then some u.database else none, undone := u.undone }

/-- What can be told of it before. -/
def upgradePlan : Plan := { Plan.reading versionSearch with pages := upgradePages }

theorem Openable.fits (h : Openable db) : upgradePlan.Fits upgradeEffect db where
  flawless := rfl
  check _ _ := ⟨false, rfl⟩
  written := by
    intro after hafter
    refine ⟨⟨false, rfl⟩, fun hpages => ?_⟩
    unfold upgradeEffect at hafter
    simp only at hafter
    split at hafter
    · -- the first page tells of the edition
      rename_i hchanged
      cases hafter
      have hfirst := hpages .first List.mem_cons_self
      have hlt := h.opens.changed hchanged
      simp only [Database.differs, Bool.or_eq_false_iff, decide_eq_false_iff_not,
        not_not] at hfirst
      exact absurd hfirst.1 (Nat.ne_of_gt hlt)
    · cases hafter

theorem View.Through.upgrade (hname : (p.beside "-journal").isNameable = true)
    (h : v.Through l db) (hl : l.Leads d p s db) (hopen : Openable db) :
    ∃ v' l' s' db', v.upgrade s = (.ok (ensureCurrent .granted db), v', s') ∧
      v'.Through l' db' ∧ l'.Leads d p s' db' ∧
      (ensureCurrent .granted db).database.SameTables db' := by
  obtain ⟨v', l', s', db', hperform, hthrough, hleads, hsame⟩ := h.perform hname hl hopen.fits
  refine ⟨v', l', s', db', hperform, hthrough, hleads, ?_⟩
  unfold upgradeEffect at hsame
  cases hchanged : (ensureCurrent .granted db).changed with
  | true =>
      simp only [hchanged, if_true, Option.getD_some] at hsame
      exact hsame
  | false =>
      simp only [hchanged, Bool.false_eq_true, if_false, Option.getD_none] at hsame
      rw [hopen.opens.unchanged hchanged]
      exact hsame

/-! ## A link to the file -/

theorem FileLink.isPlain_ofPath (path : Bytes) (p : Path) :
    (FileLink.ofLocation (.ofPath path) p).IsPlain p := ⟨rfl, rfl, rfl, rfl, rfl, rfl⟩

/-- A new link to a file at rest. -/
theorem directly_of_linked (path : Bytes) (hd : d.Keeps s.disk) (hrests : s.Rests p)
    (hholds : s.Holds p db) :
    (FileLink.ofLocation (.ofPath path) p).Directly d p
      (s.setUse p (Place.useBy (.ofLocation (.ofPath path) p) (s.use p))) db := by
  constructor
  case plain => exact FileLink.isPlain_ofPath path p
  case detached => rfl
  case unindexed => rfl
  case remembers => exact .of_unread rfl
  case rests =>
    refine ⟨hrests.journal, hrests.log, hrests.index, ?_, ?_, ?_⟩
    all_goals rw [Files.use_setUse]
    · exact hrests.users
    · exact hrests.readers
    · exact hrests.shared
  case holds => exact hholds.setUse _ _
  case keeps => exact hd

theorem Place.openFile_plain (hd : d.Keeps s.disk) (hparent : d.node p.dropLast = some .directory)
    (hrests : s.Rests p) (hholds : s.Holds p db) (path : Bytes) (name : String) :
    ∃ l s', Place.openFile s (.ofPath path) name p = .ok (.file l, s') ∧ l.Directly d p s' db := by
  have hmodel : (!(s.use p).spare.contains (FileLink.ofLocation (.ofPath path) p).readOnly &&
      !hasModel s.disk (.ofPath path)) = false := Bool.and_false _
  have hmade : s.disk.isDirectory p.dropLast = true := by
    unfold Disk.isDirectory
    rw [hd _ hparent]
  unfold Place.openFile
  simp only [hmodel, Bool.false_eq_true, if_false]
  cases hholds with
  | missing hnode =>
      simp only [hnode, hmade]
      refine ⟨_, _, rfl, directly_of_linked path ?_ (hrests.setFile _) ?_⟩
      · exact hd.trans (Files.keeps_setFile (by rw [hnode]; nofun) _)
      · exact .blank (Files.node_setFile_self ..) (Nat.zero_le _)
  | blank hnode hb =>
      simp only [hnode]
      exact ⟨_, _, rfl, directly_of_linked path hd hrests (.blank hnode hb)⟩
  | database hnode =>
      simp only [hnode]
      exact ⟨_, _, rfl, directly_of_linked path hd hrests (.database hnode)⟩

/-- A plain name means the file at its path, which is reached by a view that does not know
anything of it. -/
theorem Channel.connect_plain {s : Storage} (hfile : d.Locates file p) (hd : d.Keeps s.files.disk)
    (hrests : s.files.Rests p) (hholds : s.files.Holds p db) :
    ∃ l files, Channel.connect s file = .ok (.own (.ofPlace (.file l)), { s with files }) ∧
      l.Directly d p files db := by
  obtain ⟨l, files, hopen, hdirectly⟩ := Place.openFile_plain hd hfile.parent hrests hholds
    (Utf8.bytes file) file
  refine ⟨l, files, ?_, hdirectly⟩
  have hparse : Location.parse (Utf8.bytes file) = .ok (.ofPath (Utf8.bytes file)) := by
    unfold Location.parse
    rw [hfile.plain.path]
    rfl
  unfold Channel.connect
  simp only [hfile.plain.zeroless, hparse]
  show connectTo s (.ofPath (Utf8.bytes file)) file = _
  have hpath : Place.pathOf? s.files.disk (Location.ofPath (Utf8.bytes file)).path = some p :=
    (hfile.again _ hd).2
  have hstored : ¬ ((Location.ofPath (Utf8.bytes file)).access = .memory ∨
      (Location.ofPath (Utf8.bytes file)).path = Utf8.bytes Place.memoryName) := by
    rintro (haccess | hpath)
    · cases haccess
    · exact hfile.plain.stored hpath
  unfold connectTo enter
  simp only [if_neg hstored, if_neg (show (Location.ofPath (Utf8.bytes file)).path ≠ [] from
    hfile.plain.nonempty), hpath]
  show ((Place.openFile s.files (.ofPath (Utf8.bytes file)) file p).map _).map _ = _
  rw [hopen]
  rfl

/-! ## Openings -/

/-- An opening has opened a store of the current version in a file; an upgrade of `shown` is
all that happened, and what is there now is `db`. -/
structure Opening.Opens (d : Disk) (p : Path) (file : String) (shown db : Database)
    (o : Opening) : Prop where
  opened : ∃ v l, o.outcome = .opened (.own v) Layout.currentVersion ∧ v.Through l db ∧
    l.Leads d p o.storage.files db
  upgraded : (ensureCurrent .granted shown).database.SameTables db
  log : o.log = .opening file :: (ensureCurrent .granted shown).progress.map .ofProgress

theorem Opening.ofUpgrade_file {s : Storage} (file : String)
    (hname : (p.beside "-journal").isNameable = true)
    (h : v.Through l db) (hl : l.Leads d p s.files db) (hopen : Openable db) :
    ∃ db', (Opening.ofUpgrade s (.own v) [.opening file]).Opens d p file db db' := by
  obtain ⟨v', l', files, db', hupgrade, hthrough, hleads, hsame⟩ := h.upgrade hname hl hopen
  refine ⟨db', ?_⟩
  have hrun : (Channel.own v).run s View.upgrade =
      (.ok (ensureCurrent .granted db), .own v', { s with files }) := by
    unfold Channel.run
    simp only [Channel.view, hupgrade]
  unfold Opening.ofUpgrade
  simp only [hrun, Upgrade.outcome, hopen.opens.result, Upgrade.report]
  exact ⟨⟨v', l', rfl, hthrough, hleads⟩, hsame, rfl⟩

theorem Opening.ofConnection_file {s : Storage} {config : Config}
    (hname : (p.beside "-journal").isNameable = true)
    (htime : config.busyTimeout ≤ longestTimeout)
    (h : v.Through l db) (hl : l.Leads d p s.files db) (hopen : Openable db) :
    ∃ shown db', db.SameTables shown ∧
      (Opening.ofConnection config s (.own v) [.opening file]).Opens d p file shown db' := by
  unfold Opening.ofConnection
  rw [if_neg (Nat.not_lt.mpr htime)]
  split
  · obtain ⟨v', l', files, shown, hwal, hthrough, hleads, hlogs, hsame⟩ :=
      h.requestWal hname hl
    obtain ⟨db', hopens⟩ := ofUpgrade_file (s := { s with files }) file hname hthrough hleads
      (hopen.sameTables hsame)
    refine ⟨shown, db', hsame, ?_⟩
    have hrun : (Channel.own v).run s View.requestWal = (.ok (), .own v', { s with files }) := by
      unfold Channel.run
      simp only [Channel.view, hwal]
    have hmode : (Channel.own v').journalMode { s with files } = "wal" := by
      unfold Channel.journalMode
      simp only [Channel.view, hthrough.place, Place.journalMode, hlogs, if_true]
    unfold Opening.ofWalRequest
    simp only [hrun, hmode, if_true, List.append_nil]
    exact hopens
  · obtain ⟨db', hopens⟩ := ofUpgrade_file file hname h hl hopen
    exact ⟨db, db', .refl db, hopens⟩

/-- A cache is opened in a file that nobody works with. -/
theorem openCache_file {s : Storage} {config : Config} (hfile : d.Locates config.cacheFile p)
    (hd : d.Keeps s.files.disk) (hrests : s.files.Rests p) (hholds : s.files.Holds p db)
    (htime : config.busyTimeout ≤ longestTimeout) (hopen : Openable db) :
    ∃ shown db', db.SameTables shown ∧
      (openCache s config).Opens d p config.cacheFile shown db' := by
  obtain ⟨l, files, hconnect, hdirectly⟩ := Channel.connect_plain hfile hd hrests hholds
  have hmade := (hfile.again _ hd).1
  unfold openCache
  simp only [hmade, hconnect]
  exact Opening.ofConnection_file hfile.nameable htime (View.through_ofPlace l db)
    (.directly hdirectly) hopen

end Opening

end MessageCache
