import VirtualFiles.Bisection
import VirtualFiles.Segment

/-!
# Virtual streams

A virtual stream is stitched together from segments whose extents follow each other from
address `0` on without a gap. The table of segments never changes. A read that spans several
segments asks each of them for its piece in turn; a source that cannot deliver its piece
fails the whole read, for later bytes must not take the place of missing ones.

## Main definitions

* `Tiles` — segments that cover an interval without gap or overlap
* `VirtualStream` — a table of segments that tiles the addresses below its length
* `VirtualStream.ofSegments` — checked construction; empty segments are dropped
* `VirtualStream.segmentIndex?` — the segment that holds an address
* `VirtualStream.readAt` — a read without a cursor
* `VirtualStream.toSource` — a stream as a source for a segment of another stream

## Main results

* `length_le_of_readAt` — a read never gives more than was asked for
-/

namespace VirtualFiles

/-- Why the segments form no stream. Segments are counted without the empty ones. -/
inductive StreamError
  | notContiguous (index expected actual : Nat)
  | sourceTooShort (index : Nat) (extent : Extent) (sourceLength : Nat)
  deriving DecidableEq

/-- The failure in words. -/
def StreamError.message : StreamError → String
  | .notContiguous index expected actual =>
    "segment #" ++ toString index ++ " starts at " ++ Hex.address actual ++ ", expected " ++
      Hex.address expected
  | .sourceTooShort index extent sourceLength =>
    "segment #" ++ toString index ++ " source holds " ++ toString sourceLength ++
      " bytes, range " ++ extent.display ++ " needs more"

/-- Why a read failed: the source of one segment ended before the piece that begins at
`offset` in it was read, or failed by itself. -/
inductive ReadError
  | shortRead (index : Nat) (kind : SegmentKind) (extent : Extent) (offset : Nat)
  | backing (index : Nat) (kind : SegmentKind) (extent : Extent) (cause : IoError)
  deriving DecidableEq

namespace ReadError

/-- The failure in words. -/
def message : ReadError → String
  | .shortRead index kind extent offset =>
    "segment #" ++ toString index ++ " (" ++ kind.display ++ ") at " ++ extent.display ++
      " ended early at local offset " ++ Hex.address offset
  | .backing index kind extent _ =>
    "cannot read segment #" ++ toString index ++ " (" ++ kind.display ++ ") at " ++
      extent.display

/-- The failure of a segment whose source failed to deliver the piece at `offset`. -/
def ofSource (index : Nat) (segment : Segment) (offset : Nat) (cause : IoError) : ReadError :=
  if cause.kind = .unexpectedEof then .shortRead index segment.kind segment.extent offset
  else .backing index segment.kind segment.extent cause

/-- The failure as one of a source: an early end stays one, and all else loses its kind. -/
def toIoError (e : ReadError) : IoError :=
  match e with
  | .shortRead .. => .explained .unexpectedEof e.message
  | .backing .. => .explained .other e.message

theorem kind_toIoError_ne_interrupted (e : ReadError) : e.toIoError.kind ≠ .interrupted := by
  cases e <;> simp [toIoError]

end ReadError

/-- The segments are not empty, follow each other from `start` to `stop` without gap or
overlap, and each source announces enough bytes for its extent. -/
inductive Tiles : Nat → List Segment → Nat → Prop
  | nil (start : Nat) : Tiles start [] start
  | cons {segment : Segment} {rest : List Segment} {start stop : Nat}
      (starts : segment.extent.start = start)
      (nonempty : 0 < segment.extent.length)
      (covered : segment.extent.length ≤ segment.source.length)
      (follows : Tiles segment.extent.stop rest stop) :
      Tiles start (segment :: rest) stop

/-- Segments that tile the addresses below a length. -/
structure VirtualStream where
  segments : Array Segment
  length : Nat
  tiles : Tiles 0 segments.toList length

namespace VirtualStream

/-- The stream without a byte. -/
def empty : VirtualStream := ⟨#[], 0, .nil 0⟩

/-- Where the segments end if they tile the addresses from `start` on. `index` counts the
segments before them. -/
def tile (index start : Nat) : (segments : List Segment) →
    (∀ s ∈ segments, s.extent.isEmpty = false) →
    Except StreamError { stop : Nat // Tiles start segments stop }
  | [], _ => .ok ⟨start, .nil start⟩
  | s :: rest, nonempty =>
    if starts : s.extent.start = start then
      if covered : s.extent.length ≤ s.source.length then
        match tile (index + 1) s.extent.stop rest fun t ht => nonempty t (.tail s ht) with
        | .ok ⟨stop, follows⟩ =>
          have positive : 0 < s.extent.length := by
            have := nonempty s (.head rest)
            simp only [Extent.isEmpty, beq_eq_false_iff_ne] at this
            omega
          .ok ⟨stop, .cons starts positive covered follows⟩
        | .error e => .error e
      else .error (.sourceTooShort index s.extent s.source.length)
    else .error (.notContiguous index start s.extent.start)

/-- The segments that are not empty. -/
def dropEmpty (segments : List Segment) : List Segment :=
  segments.filter fun s => !s.extent.isEmpty

theorem isEmpty_of_mem_dropEmpty {segments : List Segment} {s : Segment}
    (h : s ∈ dropEmpty segments) : s.extent.isEmpty = false := by
  simpa using (List.mem_filter.mp h).2

/-- The stream of the segments that are not empty. They have to follow each other from
address `0` on, and every source has to announce enough bytes for its extent. -/
def ofSegments (segments : List Segment) : Except StreamError VirtualStream :=
  match tile 0 0 (dropEmpty segments) fun _ => isEmpty_of_mem_dropEmpty with
  | .ok ⟨length, tiles⟩ => .ok ⟨(dropEmpty segments).toArray, length, tiles⟩
  | .error e => .error e

/-- Does the stream hold no byte? -/
def isEmpty (s : VirtualStream) : Bool := s.length == 0

/-- Does the segment at `index` end at or before `offset`? -/
def endsBy (s : VirtualStream) (offset index : Nat) : Bool :=
  s.segments[index]?.any (·.extent.stop ≤ offset)

/-- The index of the segment that holds the address `offset`. Ends of segments ascend, so it
is the first segment that ends after the address. -/
def segmentIndex? (s : VirtualStream) (offset : Nat) : Option Nat :=
  if s.length ≤ offset then none
  else some (bisect (s.endsBy offset) 0 s.segments.size)

/-- Reads `remaining` bytes from the address `position` on, or as many as the segments hold.
The address lies in the first segment; `index` is the place of that segment in the table. -/
def readFrom (fs : FileSystem) (index : Nat) :
    List Segment → (position remaining : Nat) → Except ReadError Bytes
  | [], _, _ => .ok []
  | segment :: rest, position, remaining =>
    let offset := position - segment.extent.start
    let wanted := min (segment.extent.length - offset) remaining
    match segment.source.readExactAt fs offset wanted with
    | .error e => .error (.ofSource index segment offset e)
    | .ok bytes =>
      if wanted = remaining then .ok bytes
      else
        (readFrom fs (index + 1) rest (position + wanted) (remaining - wanted)).map (bytes ++ ·)

/-- At most `count` bytes from the address `offset` on; fewer only at the end of the
stream. -/
def readAt (s : VirtualStream) (fs : FileSystem) (offset count : Nat) :
    Except ReadError Bytes :=
  match s.segmentIndex? offset with
  | none => .ok []
  | some index =>
    if count = 0 then .ok []
    else readFrom fs index (s.segments.toList.drop index) offset count

variable {s : VirtualStream} {fs : FileSystem} {offset count : Nat} {bytes : Bytes}

theorem length_le_of_readFrom {segments : List Segment} {index position remaining : Nat}
    (h : readFrom fs index segments position remaining = .ok bytes) :
    bytes.length ≤ remaining := by
  induction segments generalizing index position remaining bytes with
  | nil =>
    cases h
    simp
  | cons segment rest ih =>
    simp only [readFrom] at h
    split at h
    · cases h
    · next piece hpiece =>
      have hlength := Source.length_of_readExactAt hpiece
      split at h
      · cases h
        omega
      · cases hrest : readFrom fs (index + 1) rest
            (position + min (segment.extent.length - (position - segment.extent.start)) remaining)
            (remaining - min (segment.extent.length - (position - segment.extent.start)) remaining)
        with
        | error e =>
          rw [hrest] at h
          cases h
        | ok more =>
          rw [hrest] at h
          cases h
          have := ih hrest
          simp only [List.length_append]
          omega

theorem length_le_of_readAt (h : s.readAt fs offset count = .ok bytes) :
    bytes.length ≤ count := by
  unfold readAt at h
  split at h
  · cases h
    simp
  · split at h
    · cases h
      simp
    · exact length_le_of_readFrom h

theorem lt_length_of_readAt_ne_nil (h : s.readAt fs offset count = .ok bytes)
    (hne : bytes ≠ []) : offset < s.length := by
  unfold readAt segmentIndex? at h
  split at h
  · cases h
    exact absurd rfl hne
  · next hindex =>
    split at hindex
    · cases hindex
    · omega

/-- The stream as a source for a segment of another stream. -/
def toSource (s : VirtualStream) : Source where
  length := s.length
  readAt fs offset count := (s.readAt fs offset count).mapError ReadError.toIoError
  readAt_le := by
    intro fs offset count bytes h
    cases hread : s.readAt fs offset count with
    | error e =>
      rw [hread] at h
      cases h
    | ok read =>
      rw [hread] at h
      cases h
      exact length_le_of_readAt hread

/-- The stream by its size. -/
def describe (s : VirtualStream) : String :=
  Record.closed "CompositeStream"
    [("segment_count", toString s.segments.size), ("len", toString s.length)]

/-- The table of segments. -/
def describeSegments (s : VirtualStream) : String :=
  Record.list (s.segments.toList.map Segment.describe)

end VirtualStream

end VirtualFiles
