/-
# Paths — names from the top directory down

A path is written as bytes, with slashes between its names.  A written path
starts at the top directory if it starts with a slash, and at the working
directory otherwise.  An empty name or a dot stays where it is, and two dots
lead up.
-/
import MessageCache.Text.Split
import MessageCache.Text.Utf8

namespace MessageCache

/-- The name of a file or directory. -/
abbrev FileName := Bytes

/-- The names that lead from the top directory to a file or directory. -/
abbrev Path := List FileName

namespace FileName

/-- The most bytes in a name. -/
def longest : Nat := 255

def dot : FileName := [0x2E]

def dots : FileName := [0x2E, 0x2E]

/-- The name leads nowhere else. -/
def stays (n : FileName) : Bool := n = [] || n = dot

end FileName

namespace Path

/-- The number of bytes in the written form of a path. -/
def size (p : Path) : Nat := p.foldr (fun n total => n.length + 1 + total) 0

/-- A path as bytes. -/
def written (p : Path) : Bytes := p.flatMap fun n => 0x2F :: n

/-- A file at the path can have its name. -/
def isNameable (p : Path) : Bool := (p.getLast?.getD []).length ≤ FileName.longest

/-- The path of a file beside another one, which has the same name with an
ending. -/
def beside (p : Path) (ending : String) : Path :=
  p.dropLast ++ [p.getLast?.getD [] ++ Utf8.bytes ending]

end Path

/-- A written path taken apart. -/
structure Route where
  /-- It starts at the top directory. -/
  absolute : Bool
  names : List FileName
deriving DecidableEq

namespace Route

def slash : UInt8 := 0x2F

/-- The most bytes in a written path, with one more for its end. -/
def longest : Nat := 4096

/-- A written path with all of its names, those that lead nowhere among them. -/
def ofBytes (b : Bytes) : Route := { absolute := b.head? = some slash, names := Text.split slash b }

/-- A name that is not counted among those of a path: an empty one, or a dot that
has something in front of it. -/
def isIdle (names : List FileName) (n : FileName) : Bool :=
  n = [] || (n = FileName.dot && 1 < names.length)

/-- The route to the directory that a route leads into; the names are given last
first. -/
def parentOf (absolute : Bool) : List FileName → Route
  | [] => { absolute, names := [] }
  | n :: above =>
    if isIdle (n :: above) n then parentOf absolute above else { absolute, names := above.reverse }

/-- The route to the directory that a route leads into. -/
def parent (r : Route) : Route := parentOf r.absolute r.names.reverse

/-- The number of bytes in the written form, with one more for its end. -/
def size (r : Route) : Nat := Path.size r.names

end Route

end MessageCache
