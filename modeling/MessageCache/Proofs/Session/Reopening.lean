/-
# Reopening a cache

A session plays turns on a cache: calls, and reopenings in between, for which the connection
is closed and the file is opened again, each time with a configuration of its own.

    played with reopenings         played without
    ──────────────────────         ──────────────
    call, reopen, call, ...        call, call, ...

What holds at any time is `Session.Serves`: the connection is an opened store that leads to
the file, and what it shows there has the tables of a store of the current version.  A call
keeps that and answers as this store does (`Serves.call`); a reopening keeps it, and the
tables (`Serves.reopen`).  So the answers are those of the calls alone, and it does not show
in them that the cache was ever reopened (`reopening_unseen`).

What has to be said for that is what else there is beside the file.  A cache that is opened
keeps a log next to it when it is asked to, and something else in the place of that log or of
its index is in the way of the calls after a reopening, not of those before.
-/
import MessageCache.Proofs.Storage.Opening
import MessageCache.Proofs.Store.Footprint
import MessageCache.Proofs.Store.Prepare
import MessageCache.Session

namespace MessageCache

/-! ## Turns -/

/-- What is done with a cache. -/
inductive Turn where
  | call (call : Store.Call)
  /-- The connection is closed, and the cache is opened again. -/
  | reopen (config : Config)

namespace Turn

def call? : Turn → Option Store.Call
  | .call c => some c
  | .reopen _ => none

def isCall (turn : Turn) : Bool := turn.call?.isSome

theorem calls_filter (turns : List Turn) :
    (turns.filter isCall).filterMap call? = turns.filterMap call? := by
  rw [List.filterMap_filter]
  congr 1
  funext turn
  cases turn with
  | call c => rfl
  | reopen config => rfl

end Turn

namespace Session

/-- The session after a connection was closed and its cache opened again. -/
def reopen (s : Session) (name : String) (config : Config) : Session :=
  (s.close name).adopt name (openCache (s.close name).storage config)

/-- The answer that a turn gives, if it is a call that an opened store takes, and the session
after it. -/
def take (s : Session) (name : String) : Turn → List (Except StoreError Store.Reply) × Session
  | .reopen config => ([], s.reopen name config)
  | .call call =>
    match (s.connection name).bind fun c => s.call name c call with
    | none => ([], s)
    | some (answer, _, s) => ([answer], s)

/-- The answers to turns one after the other, and the session after the last. -/
def play (s : Session) (name : String) :
    List Turn → List (Except StoreError Store.Reply) × Session
  | [] => ([], s)
  | turn :: rest =>
    let (answers, s) := s.take name turn
    let (more, s) := s.play name rest
    (answers ++ more, s)

/-- The database that a connection shows. -/
def shown? (s : Session) (name : String) : Option Database :=
  (s.connection name).bind fun c => ((c.channel.view s.storage).database s.storage.files).toOption

end Session

/-! ## Calls -/

section Calls

variable {db : Database} {t : Table}

/-- A call does what its plan says. -/
theorem InLayout.fits (h : InLayout Layout.currentVersion db t) (call : Store.Call) :
    call.plan.Fits call.effect db where
  flawless := rfl
  check := by
    intro known hknown
    have hbare : Table.IsBare { t with rows := [] } := ⟨h.layout, rfl⟩
    refine Store.Call.check_ok hbare ?_ call
    rw [Database.table?, hknown]
    show (db.table? messagesTable).map _ = _
    rw [h.messages]
    rfl
  written := by
    intro after hafter
    rw [Store.Call.changed_effect] at hafter
    split at hafter
    · rename_i hchange
      cases hafter
      cases hanswer : (call.run db).1 with
      | error e =>
          rw [hanswer] at hchange
          cases hchange
      | ok reply =>
          rw [hanswer] at hchange
          have hname : t.name = messagesTable := by
            obtain ⟨u, hu, hname⟩ := Database.hasTableNamed_iff.mp
              (hasMessages_of_storedVersion h.version)
            obtain rfl : t = u := Option.some.inj (h.messages.symm.trans hu)
            exact hname
          constructor
          · refine ⟨call.writes, ?_⟩
            unfold Store.Call.plan
            simp only [hanswer]
          · intro hpages
            rw [Store.Call.run_of_not_differs h.messages hname hanswer hchange fun page hpage =>
              hpages page (List.mem_cons_of_mem _ hpage)]
            exact .refl db
    · cases hafter

end Calls

/-! ## A connection to a cache -/

/-- An opened store leads to a file, where there are the tables of a store of the current
version. -/
structure Session.Serves (s : Session) (name : String) (d : Disk) (p : Path) (db : Database) :
    Prop where
  shows : ∃ c v l shown, s.connection name = some c ∧ c.version = some Layout.currentVersion ∧
    c.channel = .own v ∧ v.Through l shown ∧ l.Leads d p s.storage.files shown ∧
    db.SameTables shown
  current : ∃ t, InLayout Layout.currentVersion db t

section Serving

variable {s : Session} {name : String} {d : Disk} {p : Path} {db : Database} {config : Config}

@[simp] theorem Session.connection_set (s : Session) (name : String) (c : Option Connection) :
    (s.set name c).connection name = c := if_pos rfl

namespace Session.Serves

/-- A call is answered as the store answers it. -/
theorem call (hname : (p.beside "-journal").isNameable = true) (h : s.Serves name d p db)
    (call : Store.Call) :
    (s.take name (.call call)).1 = [(call.run db).1] ∧
      (s.take name (.call call)).2.Serves name d p (call.run db).2 := by
  obtain ⟨⟨c, v, l, shown, hconnection, hversion, hchannel, hthrough, hleads, hsame⟩, t,
    hlayout⟩ := h
  have htake : ∀ answer log after, s.call name c call = some (answer, log, after) →
      s.take name (.call call) = ([answer], after) := by
    intro answer log after hcall
    simp only [Session.take, hconnection, Option.bind_some, hcall]
  have hcurrent := call.inLayout hlayout
  cases himmediate : call.immediate? with
  | some answer =>
      have hcall : s.call name c call = some (answer, call.log answer, s) := by
        simp only [Session.call, hversion, Option.map_some, himmediate]
      rw [htake _ _ _ hcall, Store.Call.run_eq_of_immediate himmediate db]
      exact ⟨rfl, ⟨c, v, l, shown, hconnection, hversion, hchannel, hthrough, hleads, hsame⟩, t,
        hlayout⟩
  | none =>
      have hlayout' := hlayout.sameTables hsame
      obtain ⟨v', l', files, db', hperform, hthrough', hleads', hsame'⟩ :=
        hthrough.perform hname hleads (hlayout'.fits call)
      obtain ⟨hanswer, hafter⟩ := Store.Call.run_sameTables hsame hlayout.messages call
      have hrun : s.answer name c call = ((call.run db).1,
          { s with storage := { s.storage with files } }.set name
            (some { c with channel := .own v' })) := by
        unfold Session.answer Session.run Channel.run
        simp only [hchannel, Channel.view, hperform]
        show ((call.effect .granted shown).answer, _) = _
        rw [← hanswer, ← Store.Call.runWith_granted]
        rfl
      have hcall : s.call name c call = some ((call.run db).1, call.log (call.run db).1,
          { s with storage := { s.storage with files } }.set name
            (some { c with channel := .own v' })) := by
        simp only [Session.call, hversion, Option.map_some, himmediate, hrun]
      rw [htake _ _ _ hcall]
      refine ⟨rfl, ⟨_, v', l', db', Session.connection_set _ _ _, hversion, rfl, hthrough',
        hleads', ?_⟩, hcurrent⟩
      rw [Store.Call.changed_getD] at hsame'
      exact hafter.trans hsame'

/-- What is left when the connection is closed is the file, at rest, with these tables. -/
theorem close (h : s.Serves name d p db) :
    ∃ left, db.SameTables left ∧ (s.close name).storage.files.Rests p ∧
      (s.close name).storage.files.Holds p left ∧ d.Keeps (s.close name).storage.files.disk ∧
      (s.close name).connection name = none := by
  obtain ⟨⟨c, v, l, shown, hconnection, -, hchannel, hthrough, hleads, hsame⟩, -⟩ := h
  have hclose : s.close name = { s with
      storage := { s.storage with files := l.release s.storage.files } }.set name none := by
    unfold Session.close
    simp only [hconnection, hchannel, Channel.release, hthrough.place]
    rfl
  obtain ⟨hrests, hholds, hkeeps⟩ := hleads.release
  rw [hclose]
  exact ⟨shown, hsame, hrests, hholds, hkeeps, Session.connection_set _ _ _⟩

/-- The tables that the connection shows. -/
theorem shown? (h : s.Serves name d p db) :
    ∃ shown, s.shown? name = some shown ∧ db.SameTables shown := by
  obtain ⟨⟨c, v, l, shown, hconnection, -, hchannel, hthrough, hleads, hsame⟩, -⟩ := h
  have hview : v.database s.storage.files = .ok shown := by
    unfold View.database
    rw [hthrough.seen, hthrough.place]
    exact hleads.database_eq
  refine ⟨shown, ?_, hsame⟩
  unfold Session.shown?
  simp only [hconnection, hchannel, Option.bind_some, Channel.view, hview]
  rfl

/-- A store that was opened is served from then on. -/
theorem of_adopt {file : String} {shown : Database} {o : Opening}
    (hnone : s.connection name = none) (hopen : Openable shown)
    (h : o.Opens d p file shown db) : (s.adopt name o).Serves name d p db := by
  obtain ⟨v, l, houtcome, hthrough, hleads⟩ := h.opened
  obtain ⟨t, hlayout⟩ := hopen.opens.layout
  have hadopt : s.adopt name o = { s with storage := o.storage }.set name
      (some (.opened (.own v) Layout.currentVersion)) := by
    unfold Session.adopt Session.replace Session.close
    simp only [houtcome, hnone]
  rw [hadopt]
  exact ⟨⟨_, v, l, db, Session.connection_set _ _ _, rfl, rfl, hthrough, hleads, .refl db⟩, t,
    hlayout.sameTables h.upgraded⟩

theorem sameTables {other : Database} (h : s.Serves name d p db) (hsame : other.SameTables db) :
    s.Serves name d p other := by
  obtain ⟨⟨c, v, l, shown, hconnection, hversion, hchannel, hthrough, hleads, hshown⟩, t,
    hlayout⟩ := h
  exact ⟨⟨c, v, l, shown, hconnection, hversion, hchannel, hthrough, hleads,
    hsame.trans hshown⟩, t, hlayout.sameTables hsame.symm⟩

/-- Reopening finds a current store, and leaves it at that. -/
theorem reopen (hfile : d.Locates config.cacheFile p) (htime : config.busyTimeout ≤ longestTimeout)
    (h : s.Serves name d p db) :
    (∃ c, (openCache (s.close name).storage config).outcome = .opened c Layout.currentVersion) ∧
      (openCache (s.close name).storage config).log =
        [.opening config.cacheFile, .ofProgress (.upToDate Layout.currentVersion)] ∧
      (s.reopen name config).Serves name d p db := by
  obtain ⟨left, hleft, hrests, hholds, hkeeps, hnone⟩ := h.close
  obtain ⟨t, hlayout⟩ := h.current
  have hopen : Openable left := .layout (hlayout.sameTables hleft) (Nat.le_refl _)
  obtain ⟨shown, db', hshown, hopens⟩ := openCache_file hfile hkeeps hrests hholds htime hopen
  have hcurrent := hlayout.sameTables (hleft.trans hshown)
  have hcurrent' : (ensureCurrent .granted shown).Is _ _ _ :=
    ensureCurrent_of_current hcurrent.version
  obtain ⟨v, -, houtcome, -⟩ := hopens.opened
  refine ⟨⟨_, houtcome⟩, ?_, ?_⟩
  · rw [hopens.log, hcurrent'.progress]
    rfl
  · have hsame := hopens.upgraded
    rw [hcurrent'.database] at hsame
    exact (of_adopt hnone (hopen.sameTables hshown) hopens).sameTables
      ((hleft.trans hshown).trans hsame)

/-- Whatever is played, the answers are those of the calls alone, and so is what is left. -/
theorem play {turns : List Turn} (hname : (p.beside "-journal").isNameable = true)
    (hturns : ∀ config, .reopen config ∈ turns →
      d.Locates config.cacheFile p ∧ config.busyTimeout ≤ longestTimeout)
    (h : s.Serves name d p db) :
    (s.play name turns).1 = (Store.run db (turns.filterMap Turn.call?)).1 ∧
      (s.play name turns).2.Serves name d p (Store.run db (turns.filterMap Turn.call?)).2 := by
  induction turns generalizing s db with
  | nil => exact ⟨rfl, h⟩
  | cons turn rest ih =>
      have hrest : ∀ config, .reopen config ∈ rest →
          d.Locates config.cacheFile p ∧ config.busyTimeout ≤ longestTimeout :=
        fun config hmem => hturns config (List.mem_cons_of_mem _ hmem)
      cases turn with
      | call c =>
          obtain ⟨hanswer, hserves⟩ := h.call hname c
          obtain ⟨hanswers, hafter⟩ := ih hrest hserves
          refine ⟨?_, hafter⟩
          show (s.take name (.call c)).1 ++ ((s.take name (.call c)).2.play name rest).1 = _
          rw [hanswer, hanswers]
          rfl
      | reopen config =>
          obtain ⟨hfile, htime⟩ := hturns config List.mem_cons_self
          obtain ⟨-, -, hserves⟩ := h.reopen hfile htime
          exact ih hrest hserves

end Session.Serves

end Serving

/-! ## The whole of it -/

/-- Of the reopenings among the turns nothing is seen: the calls are answered as without
them, and each of them opens a store of the current version, says that it is, and leaves the
tables as they are. -/
structure Session.ReopensUnseen (s : Session) (name : String) (turns : List Turn) : Prop where
  answers : (s.play name turns).1 = (s.play name (turns.filter Turn.isCall)).1
  /-- No call is left without an answer. -/
  answered : (s.play name turns).1.length = turns.countP Turn.isCall
  reopened : ∀ done config rest, turns = done ++ .reopen config :: rest →
    (∃ c, (openCache ((s.play name done).2.close name).storage config).outcome =
      .opened c Layout.currentVersion) ∧
    (openCache ((s.play name done).2.close name).storage config).log =
      [.opening config.cacheFile, .ofProgress (.upToDate Layout.currentVersion)] ∧
    ∃ before after, (s.play name done).2.shown? name = some before ∧
      ((s.play name done).2.reopen name config).shown? name = some after ∧
      before.SameTables after

theorem Store.length_run (db : Database) (calls : List Store.Call) :
    (Store.run db calls).1.length = calls.length := by
  induction calls generalizing db with
  | nil => rfl
  | cons call rest ih => exact congrArg (· + 1) (ih _)

section Reopenings

variable {s : Session} {name : String} {d : Disk} {p : Path} {db : Database} {config : Config}
  {turns : List Turn}

theorem Session.Serves.reopensUnseen (hname : (p.beside "-journal").isNameable = true)
    (hturns : ∀ config, .reopen config ∈ turns →
      d.Locates config.cacheFile p ∧ config.busyTimeout ≤ longestTimeout)
    (h : s.Serves name d p db) : s.ReopensUnseen name turns where
  answers := by
    have hcalls : ∀ config, Turn.reopen config ∈ turns.filter Turn.isCall →
        d.Locates config.cacheFile p ∧ config.busyTimeout ≤ longestTimeout :=
      fun config hmem => hturns config (List.mem_of_mem_filter hmem)
    rw [(h.play hname hturns).1, (h.play hname hcalls).1, Turn.calls_filter]
  answered := by
    rw [(h.play hname hturns).1, Store.length_run, List.length_filterMap_eq_countP]
    rfl
  reopened := by
    intro done config rest hsplit
    subst hsplit
    obtain ⟨hfile, htime⟩ := hturns config (by simp)
    have hdone := (h.play hname fun config hmem =>
      hturns config (List.mem_append_left _ hmem)).2
    obtain ⟨houtcome, hlog, hserves⟩ := hdone.reopen hfile htime
    obtain ⟨before, hbefore, hsame⟩ := hdone.shown?
    obtain ⟨after, hafter, hsame'⟩ := hserves.shown?
    exact ⟨houtcome, hlog, before, after, hbefore, hafter, hsame.symm.trans hsame'⟩

/-- A cache can be opened in a file of this name.  The directories that it takes are there
or can be made, and the path then means a file that is not in use as a log's, with nothing
else beside it and room for the names that belong there. -/
structure Storage.Offers (s : Storage) (file : String) (d : Disk) (p : Path) (db : Database) :
    Prop where
  plain : IsPlainName file
  home : s.files.disk.HasWay Disk.home
  made : s.files.disk.makeDirectories (Route.ofBytes (Utf8.bytes file)).parent = (d, .ok ())
  path : Place.pathOf? d (Utf8.bytes file) = some p
  nameable : (p.beside "-journal").isNameable = true
  rests : Files.Rests { s.files with disk := d } p
  holds : Files.Holds { s.files with disk := d } p db

theorem Storage.Offers.locates {s : Storage} {file : String} (h : s.Offers file d p db) :
    d.Locates file p := by
  obtain ⟨hparent, hagain⟩ := Place.way_stays h.home h.made h.path h.holds.not_directory
  exact ⟨h.plain, h.nameable, hparent, hagain⟩

/-- Opening makes the directories first. -/
theorem openCache_of_made {s : Storage} (h : s.files.disk.makeDirectories
      (Route.ofBytes (Utf8.bytes config.cacheFile)).parent = (d, .ok ()))
    (hagain : d.makeDirectories (Route.ofBytes (Utf8.bytes config.cacheFile)).parent = (d, .ok ())) :
    openCache s config = openCache { s with files := { s.files with disk := d } } config := by
  unfold openCache
  simp only [h, hagain]

/-- A cache is opened in a file that holds nothing, or a store in the layout of a version; and
whatever is then done with it, reopening it is not seen. -/
theorem reopening_unseen (hnone : s.connection name = none)
    (hoffers : s.storage.Offers config.cacheFile d p db) (hopen : Openable db)
    (htime : config.busyTimeout ≤ longestTimeout)
    (hturns : ∀ next, .reopen next ∈ turns →
      next.cacheFile = config.cacheFile ∧ next.busyTimeout ≤ longestTimeout) :
    (∃ c, (openCache s.storage config).outcome = .opened c Layout.currentVersion) ∧
      (s.adopt name (openCache s.storage config)).ReopensUnseen name turns := by
  have hfile := hoffers.locates
  rw [openCache_of_made hoffers.made (hfile.again d (.refl d)).1]
  obtain ⟨shown, opened, hshown, hopens⟩ := openCache_file
    (s := { s.storage with files := { s.storage.files with disk := d } }) hfile (.refl d)
    hoffers.rests hoffers.holds htime hopen
  obtain ⟨v, -, houtcome, -⟩ := hopens.opened
  have hserves := Session.Serves.of_adopt hnone (hopen.sameTables hshown) hopens
  refine ⟨⟨_, houtcome⟩, hserves.reopensUnseen hfile.nameable fun next hnext => ?_⟩
  obtain ⟨hsame, hnexttime⟩ := hturns next hnext
  exact ⟨hsame ▸ hfile, hnexttime⟩

end Reopenings

/-! ### In the working directory -/

/-- A file in the working directory. -/
def plainFile : String := "c.db"

def plainPath : Path := Disk.home ++ [Utf8.bytes plainFile]

theorem offers_start : Session.start.storage.Offers plainFile Disk.empty plainPath .empty where
  plain := ⟨by decide, by decide, by decide, by decide⟩
  home := by
    intro q hq
    show (if q.isPrefixOf Disk.home then _ else _) = _
    rw [List.isPrefixOf_iff_prefix.mpr hq]
    rfl
  made := rfl
  path := by decide +kernel
  nameable := by decide
  rests := ⟨by decide, by decide, by decide, rfl, rfl, rfl⟩
  holds := .missing (by decide)

/-- The configuration that does not ask for a log. -/
def unlogged : Config := { Config.forFile plainFile with wal := false }

/-- Something is stored and counted, and the cache is opened again in between, with and without
a log. -/
def reopenedTurns : List Turn :=
  [.call (.add (Message.new "a" 5 "t" "") 9), .reopen unlogged, .call (.state "a"),
    .reopen (.forFile plainFile), .call .total]

theorem reopening_unseen_start :
    (∃ c, (openCache Session.start.storage (.forFile plainFile)).outcome =
      .opened c Layout.currentVersion) ∧
    (Session.start.adopt "s" (openCache Session.start.storage (.forFile plainFile))).ReopensUnseen
      "s" reopenedTurns := by
  refine reopening_unseen rfl offers_start (.blank (.refl _)) (by decide) ?_
  intro next hnext
  simp only [reopenedTurns, List.mem_cons, List.not_mem_nil, or_false] at hnext
  rcases hnext with h | h | h | h | h
  · cases h
  · cases h
    decide
  · cases h
  · cases h
    decide
  · cases h

/-! ### Something in the way of the log -/

/-- A new store. -/
def newStore : Database := (ensureCurrent .granted .empty).database

/-- It is in a file beside which there is a directory, in the place of the index of a log. -/
def blocked : Session :=
  { Session.start with
    storage := { Storage.empty with
      files := { Files.empty with
        disk := (Disk.empty.setFile plainPath (.database newStore false)).set
          (plainPath.beside "-shm") (some .directory) } } }

/-- The store is opened without a log, and then with one. -/
def blockedTurns : List Turn :=
  [.call (.add (Message.new "a" 5 "t" "") 9), .reopen (.forFile plainFile),
    .call (.add (Message.new "b" 5 "t" "") 9)]

/-- It can be opened without the index, and as the current store that it is, but then nothing
can be added to it. -/
theorem not_reopensUnseen_blocked :
    (∃ t, InLayout Layout.currentVersion newStore t) ∧
    blocked.storage.files.disk.node plainPath = some (.file (.database newStore false)) ∧
    (∃ c, (openCache blocked.storage unlogged).outcome = .opened c Layout.currentVersion) ∧
    ((blocked.adopt "s" (openCache blocked.storage unlogged)).play "s" blockedTurns).1 =
      [.ok .stored, .error (.database .readOnly)] ∧
    ((blocked.adopt "s" (openCache blocked.storage unlogged)).play "s"
      (blockedTurns.filter Turn.isCall)).1 = [.ok .stored, .ok .stored] ∧
    ¬ (blocked.adopt "s" (openCache blocked.storage unlogged)).ReopensUnseen "s" blockedTurns := by
  have hwith : ((blocked.adopt "s" (openCache blocked.storage unlogged)).play "s"
      blockedTurns).1 = [.ok .stored, .error (.database .readOnly)] := by decide +kernel
  have hwithout : ((blocked.adopt "s" (openCache blocked.storage unlogged)).play "s"
      (blockedTurns.filter Turn.isCall)).1 = [.ok .stored, .ok .stored] := by decide +kernel
  refine ⟨(opens_of_blank (.refl _)).layout, rfl, ⟨_, rfl⟩, hwith, hwithout, fun h => ?_⟩
  have hanswers := h.answers
  rw [hwith, hwithout] at hanswers
  cases hanswers

end MessageCache
