/-
# A database file and what is beside it

Beside the file of a database there is room for a journal, a log and the index of that log.
None of the four is where another one is, so what is done to one of them leaves the others
as they are.

    Rests       nobody works with a log, and none of the three is there
    Logs        one link works with a log; that and its index are there, the journal is not

Which database is to be found is a question of the file alone (`Holds`), or of the file and
the changes in its log (`HoldsLogged`).
-/
import MessageCache.Proofs.Storage.Way
import MessageCache.Storage.FileLink.Change

namespace MessageCache

/-! ## Paths beside a path -/

namespace Path

variable {p : Path} {ending other : String}

theorem beside_ne_self (h : Utf8.bytes ending ≠ []) : p.beside ending ≠ p := by
  intro heq
  have hlast := congrArg List.getLast? heq
  rw [beside, List.getLast?_concat] at hlast
  cases hp : p.getLast? with
  | none =>
      rw [hp] at hlast
      cases hlast
  | some name =>
      rw [hp, Option.getD_some, Option.some.injEq, List.append_right_eq_self] at hlast
      exact h hlast

theorem beside_ne_beside (h : Utf8.bytes ending ≠ Utf8.bytes other) :
    p.beside ending ≠ p.beside other := by
  intro heq
  unfold beside at heq
  have hname := (List.cons.inj (List.append_cancel_left heq)).1
  exact h (List.append_cancel_left hname)

@[simp] theorem journal_ne_self (p : Path) : p.beside "-journal" ≠ p := beside_ne_self (by decide)

@[simp] theorem log_ne_self (p : Path) : p.beside "-wal" ≠ p := beside_ne_self (by decide)

@[simp] theorem index_ne_self (p : Path) : p.beside "-shm" ≠ p := beside_ne_self (by decide)

@[simp] theorem journal_ne_log (p : Path) : p.beside "-journal" ≠ p.beside "-wal" :=
  beside_ne_beside (by decide)

@[simp] theorem journal_ne_index (p : Path) : p.beside "-journal" ≠ p.beside "-shm" :=
  beside_ne_beside (by decide)

@[simp] theorem log_ne_index (p : Path) : p.beside "-wal" ≠ p.beside "-shm" :=
  beside_ne_beside (by decide)

@[simp] theorem index_ne_log (p : Path) : p.beside "-shm" ≠ p.beside "-wal" :=
  beside_ne_beside (by decide)

end Path

/-! ## Files one by one -/

namespace Files

variable {s : Files} {p q : Path} {c : FileContent} {u : FileUse}

@[simp] theorem node_setFile (s : Files) (p : Path) (c : FileContent) (q : Path) :
    (s.setFile p c).disk.node q = if q = p then some (.file c) else s.disk.node q :=
  Disk.node_set s.disk p _ q

theorem node_setFile_self (s : Files) (p : Path) (c : FileContent) :
    (s.setFile p c).disk.node p = some (.file c) := by rw [node_setFile, if_pos rfl]

@[simp] theorem use_setFile (s : Files) (p : Path) (c : FileContent) :
    (s.setFile p c).use = s.use := rfl

@[simp] theorem disk_setUse (s : Files) (p : Path) (u : FileUse) : (s.setUse p u).disk = s.disk :=
  rfl

@[simp] theorem use_setUse (s : Files) (p : Path) (u : FileUse) : (s.setUse p u).use p = u :=
  if_pos rfl

theorem touch_of_none (h : s.disk.node p = none) : s.touch p = s.setFile p (.text []) := by
  rw [touch, h]
  rfl

theorem removeFile_of_none (h : s.disk.node p = none) : s.removeFile p = s := by
  unfold removeFile Disk.content?
  rw [h]
  rfl

theorem node_removeFile (h : s.disk.node p = some (.file c)) (q : Path) :
    (s.removeFile p).disk.node q = if q = p then none else s.disk.node q := by
  unfold removeFile Disk.content?
  rw [h]
  exact Disk.node_set s.disk p none q

@[simp] theorem use_removeFile (s : Files) (p : Path) : (s.removeFile p).use = s.use := by
  unfold removeFile
  split_ifs <;> rfl

theorem keeps_setFile (h : s.disk.node p ≠ some .directory) (c : FileContent) :
    s.disk.Keeps (s.setFile p c).disk := .set h _

theorem keeps_removeFile (s : Files) (p : Path) : s.disk.Keeps (s.removeFile p).disk := by
  unfold removeFile
  split_ifs with h
  · refine .set ?_ none
    intro hnode
    rw [Disk.content?, hnode] at h
    cases h
  · exact .refl _

/-! ## What a file holds -/

/-- The database in a file that nobody works with; a file that is not there yet holds the
empty one. -/
inductive Holds (s : Files) (p : Path) : Database → Prop
  | missing (h : s.disk.node p = none) : Holds s p .empty
  | blank {b : Bytes} (h : s.disk.node p = some (.file (.text b)))
      (hb : b.length ≤ FileLink.mostBlank) : Holds s p .empty
  | database {db : Database} {wal : Bool} (h : s.disk.node p = some (.file (.database db wal))) :
      Holds s p db

theorem Holds.not_directory {db : Database} (h : s.Holds p db) :
    s.disk.node p ≠ some .directory := by
  cases h with
  | missing hnode => rw [hnode]; nofun
  | blank hnode _ => rw [hnode]; nofun
  | database hnode => rw [hnode]; nofun

/-- How the file is used is another matter. -/
theorem Holds.setUse {db : Database} (h : s.Holds p db) (q : Path) (u : FileUse) :
    (s.setUse q u).Holds p db := by
  cases h with
  | missing hnode => exact .missing hnode
  | blank hnode hb => exact .blank hnode hb
  | database hnode => exact .database hnode

/-- The database in a file and its log.  Logging is on, and the file is a database. -/
inductive HoldsLogged (s : Files) (p : Path) : Database → Prop
  | unchanged {db : Database} (h : s.disk.node p = some (.file (.database db true)))
      (hchanged : (s.use p).changed = none) : HoldsLogged s p db
  | changed {stored : Database} {changes written : LoggedChanges}
      (h : s.disk.node p = some (.file (.database stored true)))
      (hchanged : (s.use p).changed = some changes) (hlost : changes.lost = [])
      (hlog : s.disk.node (p.beside "-wal") = some (.file (.log written))) :
      HoldsLogged s p changes.database

/-- Nobody works with a log of the file, and nothing stands beside it. -/
structure Rests (s : Files) (p : Path) : Prop where
  journal : s.disk.node (p.beside "-journal") = none
  log : s.disk.node (p.beside "-wal") = none
  index : s.disk.node (p.beside "-shm") = none
  users : (s.use p).users = 0
  readers : (s.use p).readers = 0
  shared : (s.use p).exclusive = false

/-- One link works with a log of the file. -/
structure Logs (s : Files) (p : Path) : Prop where
  journal : s.disk.node (p.beside "-journal") = none
  log : ∃ c, s.disk.node (p.beside "-wal") = some (.file c)
  index : ∃ c, s.disk.node (p.beside "-shm") = some (.file c)
  users : (s.use p).users = 1
  readers : (s.use p).readers = 1
  shared : (s.use p).exclusive = false
  indexed : (s.use p).index = .inFile

/-- Nothing is put beside the file by putting something into it. -/
theorem Rests.setFile (h : s.Rests p) (c : FileContent) : (s.setFile p c).Rests p where
  journal := by simpa using h.journal
  log := by simpa using h.log
  index := by simpa using h.index
  users := h.users
  readers := h.readers
  shared := h.shared

end Files

end MessageCache
