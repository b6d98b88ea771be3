import VirtualFiles.FileSystem.Basic
import VirtualFiles.Pak.Header

/-!
# Entry headers in files

The header of an entry is read at an offset of an archive on disk. The archive is mapped into
memory as a whole. How this is done is up to the system, and all that is relied on is that a mapped
file shows its content.

## Main definitions

* `Pak.OpenError` — why a header could not be read
* `Pak.Mapping` — a way to map files into memory
* `Pak.Mapping.ShowsFiles` — what is relied on
* `Pak.readEntry` — the header at an offset of a file
-/

namespace VirtualFiles.Pak

/-- Why the header of an entry could not be read from a file. -/
inductive OpenError
  | openFile (cause : IoError)
  | mapFile (cause : IoError)
  | offsetOutOfRange (offset length : Nat)
  | parseEntry (cause : HeaderError)
  deriving DecidableEq, Repr

/-- The failure in words. -/
def OpenError.message : OpenError → String
  | .openFile _ => "failed to open file"
  | .mapFile _ => "failed to memory map file"
  | .offsetOutOfRange offset length =>
    "offset " ++ Hex.address offset ++ " is past the end of the file (" ++ Hex.address length ++
      " bytes)"
  | .parseEntry _ => "failed to parse entry header"

/-- Maps an open file into memory: all its bytes, or the failure of the system. -/
abbrev Mapping := FileSystem → NodeId → Except IoError Bytes

namespace Mapping

/-- Every regular file can be mapped, and shows its content. -/
def ShowsFiles (map : Mapping) (fs : FileSystem) : Prop :=
  ∀ id content, fs.node? id = some (.regular content) → map fs id = .ok content

/-- The mapping of regular files and of nothing else. -/
def regularFiles : Mapping := fun fs id =>
  match fs.node? id with
  | some (.regular content) => .ok content
  | _ => .error (.bare .uncategorized)

theorem showsFiles_regularFiles (fs : FileSystem) : regularFiles.ShowsFiles fs := by
  intro id content hnode
  rw [regularFiles, hnode]

end Mapping

/-- The header of the entry at `offset` of the file that the path names. -/
def readEntry (map : Mapping) (fs : FileSystem) (path : Path) (offset : Nat) (version : Version) :
    Except OpenError Header := do
  let id ← (fs.locate path).mapError fun kind => .openFile (.bare kind)
  let content ← (map fs id).mapError .mapFile
  if content.length < offset then throw (.offsetOutOfRange offset content.length)
  (Header.parse version (content.drop offset)).mapError .parseEntry

end VirtualFiles.Pak
