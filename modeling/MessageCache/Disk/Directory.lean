/-
# Making directories and files

A directory is made together with those above it that are missing.  What was
made before a failure stays.
-/
import MessageCache.Disk.Basic
import MessageCache.Store.Error

namespace MessageCache

namespace Disk

/-- Why a directory whose path leads nowhere cannot be made. -/
def WalkFault.toIo : WalkFault → IoFault
  | .notFound => .notFound
  | .notADirectory => .notADirectory
  | .nameTooLong => .nameTooLong
  | .nulByte => .nulByte

/-- Makes one directory, unless it is there already. -/
def makeDirectory (disk : Disk) (r : Route) : Except IoFault Disk := do
  let p ← (disk.follow r).mapError WalkFault.toIo
  match disk.node p with
  | some .directory => return disk
  | some (.file _) => throw .fileExists
  | none =>
    match disk.node p.dropLast with
    | some .directory => return disk.set p (some .directory)
    | some (.file _) => throw .notADirectory
    | none => throw .notFound

/-- Makes a directory and those above it that are missing; the names come last
first, and idle ones at the end are passed over. -/
def makeDirectoriesUp (disk : Disk) (absolute : Bool) :
    List FileName → Disk × Except IoFault Unit
  | [] => (disk, .ok ())
  | n :: above =>
    if Route.isIdle (n :: above) n then makeDirectoriesUp disk absolute above
    else
      let route : Route := { absolute, names := (n :: above).reverse }
      match disk.makeDirectory route with
      | .ok disk => (disk, .ok ())
      | .error .notFound =>
        match makeDirectoriesUp disk absolute above with
        | (disk, .error fault) => (disk, .error fault)
        | (disk, .ok ()) =>
          match disk.makeDirectory route with
          | .ok disk => (disk, .ok ())
          | .error fault => (disk, .error fault)
      | .error fault => (disk, .error fault)

/-- Makes a directory and those above it that are missing. -/
def makeDirectories (disk : Disk) (r : Route) : Disk × Except IoFault Unit :=
  disk.makeDirectoriesUp r.absolute r.names.reverse

/-- Writes a file where its directory exists. -/
def writeFile (disk : Disk) (path : Bytes) (content : Bytes) : Disk :=
  match disk.follow (.ofBytes path) with
  | .error _ => disk
  | .ok p =>
    if path.isEmpty || disk.isDirectory p || !disk.isDirectory p.dropLast then disk
    else disk.setFile p (.text content)

end Disk

end MessageCache
