import VirtualFiles.FileSystem.Basic
import VirtualFiles.Seekable.Basic

/-!
# Open files with a place

A file that was opened for reading has a place, at which it is read and which can be moved
anywhere from the start of the file on.

## Main definitions

* `FileCursor` — an open file and its place
* `FileCursor.seekable` — its operations
-/

namespace VirtualFiles

/-- An open file and the place at which it is read. -/
structure FileCursor where
  node : NodeId
  position : Nat := 0
  deriving DecidableEq, Repr

namespace FileCursor

/-- Opens the file that the path names. -/
def open? (fs : FileSystem) (path : Path) : Except IoError FileCursor :=
  match fs.locate path with
  | .ok node => .ok { node }
  | .error kind => .error (.bare kind)

/-- At most `count` bytes from the place on. -/
def read (c : FileCursor) (fs : FileSystem) (count : Nat) : Except IoError Bytes × FileCursor :=
  match fs.read c.node c.position count with
  | .ok bytes => (.ok bytes, { c with position := c.position + bytes.length })
  | .error kind => (.error (.bare kind), c)

/-- The place that is meant, counted in signed numbers. -/
def target (c : FileCursor) (fs : FileSystem) : SeekFrom → Int
  | .start offset => offset
  | .stop delta => fs.size c.node + delta
  | .current delta => c.position + delta

/-- Moves to a place that is not before the start and not past the largest offset. -/
def seek (c : FileCursor) (fs : FileSystem) (goal : SeekFrom) : Except IoError Nat × FileCursor :=
  let place := c.target fs goal
  if 0 ≤ place ∧ place ≤ FileSystem.maxOffset then
    (.ok place.toNat, { c with position := place.toNat })
  else (.error (.bare .invalidInput), c)

/-- The operations of an open file. Its reads are never interrupted. -/
def seekable (fs : FileSystem) : Seekable FileCursor where
  read c count := c.read fs count
  seek c goal := c.seek fs goal
  patience _ := 0
  patience_lt := by
    intro c count e next h he
    unfold read at h
    split at h
    · cases h
    · next kind hread =>
      cases h
      exact absurd he (FileSystem.read_ne_interrupted hread)

end FileCursor

end VirtualFiles
