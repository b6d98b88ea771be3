import VirtualFiles.FileSystem.Operations

/-!
# Buffered writing

A writer keeps small pieces back and hands them to the file together, so what has been
written is not in the file yet. A piece that does not fit beside what is kept back sends
that to the file first; a piece as large as the buffer goes to the file directly.

## Main definitions

* `BufferedWriter` — a node and the bytes kept back
* `BufferedWriter.write`, `BufferedWriter.flush`
* `BufferedWriter.close` — the last flush, whose failure nobody hears of
-/

namespace VirtualFiles

/-- The bytes on their way to a node. -/
structure BufferedWriter where
  target : NodeId
  pending : Bytes := []
  deriving DecidableEq, Repr

namespace BufferedWriter

/-- How many bytes are kept back at most. -/
def capacity : Nat := 8192

/-- The result of a step of writing: whether it succeeded, and what it left behind. -/
structure Step where
  result : Except IoErrorKind Unit
  files : FileSystem
  writer : BufferedWriter

/-- Hands everything that is kept back to the file. -/
def flush (w : BufferedWriter) (fs : FileSystem) : Step :=
  match fs.append w.target w.pending with
  | .ok written => ⟨.ok (), written, { w with pending := [] }⟩
  | .error e => ⟨.error e, fs, w⟩

/-- Hands `bytes` to the file, or keeps them back if they are fewer than the buffer holds.
There has to be room for them. -/
def place (w : BufferedWriter) (fs : FileSystem) (bytes : Bytes) : Step :=
  if bytes.length < capacity then ⟨.ok (), fs, { w with pending := w.pending ++ bytes }⟩
  else
    match fs.append w.target bytes with
    | .ok written => ⟨.ok (), written, w⟩
    | .error e => ⟨.error e, fs, w⟩

/-- Writes `bytes`. -/
def write (w : BufferedWriter) (fs : FileSystem) (bytes : Bytes) : Step :=
  if w.pending.length + bytes.length ≤ capacity then w.place fs bytes
  else
    -- what is kept back goes first, so the bytes stay in order
    match w.flush fs with
    | ⟨.ok (), written, emptied⟩ => emptied.place written bytes
    | failed => failed

/-- The file system after the writer is given up: what it kept back is written if that is
possible. -/
def close (w : BufferedWriter) (fs : FileSystem) : FileSystem := (w.flush fs).files

end BufferedWriter

end VirtualFiles
