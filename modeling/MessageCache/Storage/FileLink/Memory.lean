/-
# Memory — what a link to a log has read

A page is in the log if it was changed, and in the file otherwise.  A link reads a
page once and goes on with that until someone else changes the database; only then
does it find out what has happened to the files in between.
-/
import MessageCache.Storage.FileLink.Basic

namespace MessageCache.FileLink

/-! ## Pages -/

/-- The number of bytes that a log begins with before any changes. -/
def logStart : Nat := 32

/-- The number of bytes in a log with nothing but the first page. -/
def leastLog : Nat := logStart + 24 + pageSize

/-- The fault of a page with something else on it. -/
def strangeFault (p : PageName) : Fault := if p = .first then .notADatabase else .malformed

/-- What was written over the changes in the log. -/
def overwriting? (l : FileLink) (s : Files) : Option Bytes :=
  match (s.use l.path).changed, s.disk.content? l.log with
  | some _, some (.text b) => some b
  | _, _ => none

/-- The fault that comes of reading a page that was put into the log, if something
has happened to the file while it was there: that is too short, or holds something
else. -/
def lostFault? (l : FileLink) (s : Files) (changes : LoggedChanges) (p : PageName) :
    Option Fault :=
  match l.overwriting? s with
  | some b => some (if b.length < leastLog then .deviceError else strangeFault p)
  | none => if p ∈ changes.lost then some (strangeFault p) else none

/-- The fault that comes of reading a page, if there is one. -/
def pageFault? (l : FileLink) (s : Files) (p : PageName) : Option Fault :=
  match (s.use l.path).changed.filter fun c => p ∈ c.pages with
  | some changes => l.lostFault? s changes p
  | none => if l.isSound s then none else some (strangeFault p)

/-- The fault that comes of reading the first page from the log when one opens it. -/
def lostFirst? (l : FileLink) (s : Files) : Option Fault :=
  let use := s.use l.path
  match use.changed.filter fun c => .first ∈ c.pages with
  | none => none
  | some changes =>
    if use.readers = 0 then none
    else if (s.disk.content? l.log).isNone then some .deviceError
    else l.lostFault? s changes .first

/-! ## Reading -/

/-- The link without what it has read, unless that is still good. -/
def renew (l : FileLink) (s : Files) : FileLink :=
  let commits := (s.use l.path).commits
  if l.memory.commits = commits then l else { l with memory := { Memory.none with commits } }

/-- The link after some pages are in its memory. -/
def keep (l : FileLink) (pages : List PageName) : FileLink :=
  { l with memory := { l.memory with pages := (l.memory.pages ++ pages).eraseDups } }

/-- The link after it has found something else on a page; it does not look there
again.  A page that cannot be read at all is another matter. -/
def shun (l : FileLink) (p : PageName) (fault : Fault) : FileLink :=
  if fault = .deviceError then l
  else { l with memory := { l.memory with strange := p :: l.memory.strange } }

/-- Reads pages, in their order. -/
def fetch (l : FileLink) (s : Files) : List PageName → Except Fault Unit × FileLink
  | [] => (.ok (), l)
  | p :: rest =>
    if p ∈ l.memory.pages then l.fetch s rest
    else if p ∈ l.memory.strange then (.error (strangeFault p), l)
    else
      match l.pageFault? s p with
      | some fault => (.error fault, l.shun p fault)
      | none => (l.keep [p]).fetch s rest

end MessageCache.FileLink
