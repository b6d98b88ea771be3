import VirtualFiles.Source.Basic
import VirtualFiles.Extent

/-!
# Windows of files

A window of an open file covers what was declared, not what the
file holds: a file that is too short for it, or becomes so later, makes reads come back
short.

## Main definitions

* `FileWindow` — an open file and the part of it that is read
* `FileWindow.open?` — opens a file by its path
-/

namespace VirtualFiles

/-- The window of `length` bytes at `offset` of an open file. -/
structure FileWindow where
  node : NodeId
  /-- The path by which the file was opened. -/
  path : Path
  offset : Nat
  length : Nat
  deriving DecidableEq, Repr

namespace FileWindow

/-- Opens the file that the path names. -/
def open? (fs : FileSystem) (path : Path) (offset length : Nat) : Except IoError FileWindow :=
  match fs.locate path with
  | .ok node => .ok ⟨node, path, offset, length⟩
  | .error kind => .error (.bare kind)

/-- The failure of a read whose place in the file is not an address. -/
def offsetOverflow (w : FileWindow) (offset : Nat) : IoError :=
  .explained .invalidInput
    ("offset " ++ Hex.address offset ++ " past window at " ++ Hex.address w.offset ++ " overflows")

/-- At most `count` bytes of the window from `offset` on, as the file is now. -/
def readAt (w : FileWindow) (fs : FileSystem) (offset count : Nat) : Except IoError Bytes :=
  if count = 0 ∨ w.length ≤ offset then .ok []
  else if addressSpace ≤ w.offset + offset then .error (w.offsetOverflow offset)
  else (fs.read w.node (w.offset + offset) (min count (w.length - offset))).mapError .bare

theorem length_le_of_readAt {w : FileWindow} {fs : FileSystem} {offset count : Nat} {bytes : Bytes}
    (h : w.readAt fs offset count = .ok bytes) : bytes.length ≤ count := by
  unfold readAt at h
  split at h
  · cases h
    simp
  · split at h
    · cases h
    · cases hread : fs.read w.node (w.offset + offset) (min count (w.length - offset)) with
      | error e =>
        rw [hread] at h
        cases h
      | ok read =>
        rw [hread] at h
        cases h
        have := FileSystem.length_le_of_read hread
        omega

/-- The source that reads the window. -/
def source (w : FileWindow) : Source where
  length := w.length
  readAt := w.readAt
  readAt_le := length_le_of_readAt

/-- The window by its path and bounds. -/
def describe (w : FileWindow) : String :=
  Record.abridged "FileSlice"
    [("path", w.path.describe), ("offset", toString w.offset), ("len", toString w.length)]

end FileWindow

end VirtualFiles
