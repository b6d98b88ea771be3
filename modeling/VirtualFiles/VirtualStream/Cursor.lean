import VirtualFiles.Seekable.Basic
import VirtualFiles.VirtualStream.Basic

/-!
# Cursors over virtual streams

A cursor is a stream and a position in it. It moves to every position up to and including
the end of the stream and to no other. A read moves it past the bytes that were read, and
one that fails leaves it where it was.

Reading to the end of a stream takes one read after the other. How much each of them asks for is
up to whoever provides the room for the bytes.

## Main definitions

* `Buffers` — the room for the reads that come one after the other
* `Cursor` — a stream and a position
* `Cursor.seekTo`, `Cursor.seek` — moving
* `Cursor.read`, `Cursor.readToEnd`, `Cursor.drain` — reading
* `Cursor.seekable` — a cursor as a seekable reader
-/

namespace VirtualFiles

/-- Why a cursor did not move. -/
inductive SeekError
  | outOfRange (offset length : Nat)
  | negative
  deriving DecidableEq, Repr

namespace SeekError

/-- The failure in words. -/
def message : SeekError → String
  | .outOfRange offset length =>
    "offset " ++ Hex.address offset ++ " is past the end of the stream (" ++
      Hex.address length ++ ")"
  | .negative => "seek to a negative position"

/-- The failure as one of a reader. -/
def toIoError (e : SeekError) : IoError := .explained .invalidInput e.message

end SeekError

/-- How many bytes there is room for in each of the reads that come one after the other. -/
structure Buffers where
  size : Nat → Nat
  size_pos : ∀ turn, 0 < size turn

namespace Buffers

/-- The buffers after the first one. -/
def later (buffers : Buffers) : Buffers where
  size turn := buffers.size (turn + 1)
  size_pos turn := buffers.size_pos (turn + 1)

/-- Buffers of one size. -/
def even (chunk : Nat) (h : 0 < chunk) : Buffers := ⟨fun _ => chunk, fun _ => h⟩

theorem later_even {chunk : Nat} (h : 0 < chunk) : (even chunk h).later = even chunk h := rfl

/-- A small buffer to find out whether there is anything at all, and then a vector that doubles
whenever it is full. -/
def doubling : Buffers where
  size
    | 0 => 32
    -- the vector is as long as the small buffer before it grows for the first time
    | turn + 1 => 32 <<< turn
  size_pos
    | 0 => by decide
    | turn + 1 => by
      simp only [Nat.shiftLeft_eq]
      exact Nat.mul_pos (by decide) (Nat.two_pow_pos turn)

end Buffers

/-- A position in a stream. -/
structure Cursor where
  stream : VirtualStream
  position : Nat

namespace Cursor

/-- A cursor at the start of a stream. -/
def ofStream (stream : VirtualStream) : Cursor := ⟨stream, 0⟩

/-- Moves to an address, at most to the end of the stream. -/
def seekTo (c : Cursor) (offset : Nat) : Except SeekError Nat × Cursor :=
  if offset ≤ c.stream.length then (.ok offset, { c with position := offset })
  else (.error (.outOfRange offset c.stream.length), c)

/-- An address moved by a signed distance, if the result is an address. -/
def shift? (base : Nat) (delta : Int) : Option Nat :=
  if 0 ≤ base + delta ∧ base + delta < addressSpace then some (base + delta).toNat else none

/-- The address that is meant, if it is one. -/
def target? (c : Cursor) : SeekFrom → Option Nat
  | .start offset => some offset
  | .stop delta => shift? c.stream.length delta
  | .current delta => shift? c.position delta

/-- Moves to a place counted from the start, the end or the position. A place that is no
address is reported as negative, whichever end of the address space it lies beyond. -/
def seek (c : Cursor) (goal : SeekFrom) : Except SeekError Nat × Cursor :=
  match c.target? goal with
  | some offset => c.seekTo offset
  | none => (.error .negative, c)

/-- At most `count` bytes from the position on. -/
def read (c : Cursor) (fs : FileSystem) (count : Nat) : Except ReadError Bytes × Cursor :=
  match c.stream.readAt fs c.position count with
  | .ok bytes => (.ok bytes, { c with position := c.position + bytes.length })
  | .error e => (.error e, c)

theorem read_eq_ok_iff {c next : Cursor} {fs : FileSystem} {count : Nat} {bytes : Bytes} :
    c.read fs count = (.ok bytes, next) ↔ c.stream.readAt fs c.position count = .ok bytes ∧
      next = { c with position := c.position + bytes.length } := by
  rw [read]
  cases c.stream.readAt fs c.position count <;> grind

theorem read_eq_error_iff {c next : Cursor} {fs : FileSystem} {count : Nat} {e : ReadError} :
    c.read fs count = (.error e, next) ↔
      c.stream.readAt fs c.position count = .error e ∧ next = c := by
  rw [read]
  cases c.stream.readAt fs c.position count <;> grind

/-- A read that gives something leaves less to read. -/
theorem left_lt_of_read {c next : Cursor} {fs : FileSystem} {count : Nat} {bytes : Bytes}
    (h : c.read fs count = (.ok bytes, next)) (hne : bytes ≠ []) :
    next.stream.length - next.position < c.stream.length - c.position := by
  obtain ⟨hread, rfl⟩ := read_eq_ok_iff.mp h
  have hin := VirtualStream.lt_length_of_readAt_ne_nil hread hne
  have hpos := List.length_pos_iff.mpr hne
  simp only
  omega

/-- Reads until nothing is left. Gives what was read, and the failure if a read fails: what the
reads before it have given is kept, and the cursor stays after it. No failure of a stream is an
interruption, so no read is tried again. -/
def readToEnd (c : Cursor) (fs : FileSystem) (buffers : Buffers) :
    (Bytes × Option ReadError) × Cursor :=
  match _ : c.read fs (buffers.size 0) with
  | (.error e, next) => (([], some e), next)
  | (.ok [], next) => (([], none), next)
  | (.ok (b :: bs), next) =>
    let ((rest, failure), last) := readToEnd next fs buffers.later
    ((b :: bs ++ rest, failure), last)
termination_by c.stream.length - c.position
decreasing_by exact left_lt_of_read ‹_› (List.cons_ne_nil b bs)

section ReadToEnd

variable {c next : Cursor} {fs : FileSystem} {buffers : Buffers} {bytes : Bytes} {e : ReadError}

theorem readToEnd_of_read_error (h : c.read fs (buffers.size 0) = (.error e, next)) :
    c.readToEnd fs buffers = (([], some e), next) := by
  rw [readToEnd]
  split <;> simp_all

theorem readToEnd_of_read_nil (h : c.read fs (buffers.size 0) = (.ok [], next)) :
    c.readToEnd fs buffers = (([], none), next) := by
  rw [readToEnd]
  split <;> simp_all

theorem readToEnd_of_read (h : c.read fs (buffers.size 0) = (.ok bytes, next)) (hne : bytes ≠ []) :
    c.readToEnd fs buffers =
      ((bytes ++ (next.readToEnd fs buffers.later).1.1, (next.readToEnd fs buffers.later).1.2),
        (next.readToEnd fs buffers.later).2) := by
  rw [readToEnd]
  split <;> simp_all

end ReadToEnd

/-- All bytes from the position on, read in pieces of `chunk` bytes until nothing is left.
If a piece cannot be read, the cursor stays before it. -/
def drain (c : Cursor) (fs : FileSystem) (chunk : Nat) : Except ReadError Bytes × Cursor :=
  match _ : c.stream.readAt fs c.position chunk with
  | .error e => (.error e, c)
  | .ok [] => (.ok [], c)
  | .ok (b :: bs) =>
    let (rest, last) := drain { c with position := c.position + (b :: bs).length } fs chunk
    (rest.map ((b :: bs) ++ ·), last)
termination_by c.stream.length - c.position
decreasing_by
  have := VirtualStream.lt_length_of_readAt_ne_nil ‹_› (List.cons_ne_nil b bs)
  simp only [List.length_cons]
  omega

/-- A cursor as a seekable reader, with the files as they are now. -/
def seekable (fs : FileSystem) : Seekable Cursor where
  read c count := ((c.read fs count).1.mapError ReadError.toIoError, (c.read fs count).2)
  seek c goal :=
    ((c.seek goal).1.mapError SeekError.toIoError, (c.seek goal).2)
  patience _ := 0
  patience_lt := by
    intro c count e next h he
    have h1 := congrArg Prod.fst h
    cases hread : (c.read fs count).1 with
    | ok bytes =>
      simp only [hread] at h1
      cases h1
    | error cause =>
      simp only [hread] at h1
      cases h1
      exact absurd he cause.kind_toIoError_ne_interrupted

/-- The cursor with its stream. -/
def describe (c : Cursor) : String :=
  Record.closed "StreamReader" [("stream", c.stream.describe), ("pos", toString c.position)]

end Cursor

end VirtualFiles
