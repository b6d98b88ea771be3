import VirtualFiles.IoError
import VirtualFiles.Bytes

/-!
# Readers with a place

A reader reads from its place on and can be moved. It is given by its operations on some state,
and any of them may fail. A read may be interrupted and is then simply tried again, so a seekable
reader has to say how often it will still interrupt; this is what makes an exact read end.

A probe looks at what a reader holds and must leave it where it was, whether or not it found
what it looked for.

## Main definitions

* `SeekFrom` — where to move, counted from the start, the end or the place
* `Reader` — the operations of a reader with a place
* `Reader.withRestoredPosition` — runs a probe and moves back
* `Seekable` — a reader whose interruptions come to an end
* `Seekable.readExact` — reads until everything asked for is there
-/

namespace VirtualFiles

/-- Where to move a reader. -/
inductive SeekFrom
  | start (offset : Nat)
  | stop (delta : Int)
  | current (delta : Int)
  deriving DecidableEq, Repr

/-- A reader with states `σ`. -/
structure Reader (σ : Type) where
  /-- At most that many bytes from the place of the reader on, and the reader after them. -/
  read : σ → Nat → Except IoError Bytes × σ
  /-- The new place, and the reader at it. -/
  seek : σ → SeekFrom → Except IoError Nat × σ
  /-- The place of the reader. A reader may have a way of its own to tell it, and the answer is
  the one to a move that goes nowhere. -/
  position : σ → Except IoError Nat × σ := fun state => seek state (.current 0)
  position_eq : ∀ state, position state = seek state (.current 0) := by exact fun _ => rfl

namespace Reader

variable {σ α : Type}

/-- Runs a probe and moves the reader back to where it was, also after a probe that failed.
A failure of the probe counts before a failure to move back. -/
def withRestoredPosition (r : Reader σ) (probe : σ → Except IoError α × σ) (state : σ) :
    Except IoError α × σ :=
  match r.position state with
  | (.error e, next) => (.error e, next)
  | (.ok place, next) =>
    let (result, probed) := probe next
    -- also after a failure of the probe
    let (restored, last) := r.seek probed (.start place)
    match result, restored with
    | .error e, _ => (.error e, last)
    | .ok _, .error e => (.error e, last)
    | .ok value, .ok _ => (.ok value, last)

/-- A probe of a reader that can be moved back. -/
theorem withRestoredPosition_eq {r : Reader σ} {probe : σ → Except IoError α × σ}
    {state next probed last : σ} {place back : Nat} {result : Except IoError α}
    (hposition : r.position state = (.ok place, next)) (hprobe : probe next = (result, probed))
    (hback : r.seek probed (.start place) = (.ok back, last)) :
    r.withRestoredPosition probe state = (result, last) := by
  simp only [withRestoredPosition, hposition, hprobe, hback]
  cases result <;> rfl

end Reader

/-- A reader with states `σ` that does not interrupt for ever. -/
structure Seekable (σ : Type) extends Reader σ where
  /-- How often reads will at most be interrupted from this state on. -/
  patience : σ → Nat
  patience_lt : ∀ {state count e next}, read state count = (.error e, next) →
    e.kind = .interrupted → patience next < patience state

namespace Seekable

variable {σ : Type}

/-- The data ended before everything asked for was read. -/
def endedEarly : IoError := .remarked .unexpectedEof "failed to fill whole buffer"

/-- Exactly `count` bytes from the place of the reader on. Interrupted reads are tried again;
at the end of the data the reader stays after what was read. -/
def readExact (r : Seekable σ) (state : σ) (count : Nat) : Except IoError Bytes × σ :=
  if count = 0 then (.ok [], state)
  else
    match _ : r.read state count with
    | (.ok [], next) => (.error endedEarly, next)
    | (.ok (b :: bs), next) =>
      let (rest, last) := r.readExact next (count - (b :: bs).length)
      (rest.map ((b :: bs) ++ ·), last)
    | (.error e, next) =>
      if _ : e.kind = .interrupted then r.readExact next count else (.error e, next)
termination_by (count, r.patience state)
decreasing_by
  · simp only [List.length_cons]
    exact Prod.Lex.left _ _ (by omega)
  · exact Prod.Lex.right _ (r.patience_lt ‹_› ‹_›)

section ReadExact

variable {r : Seekable σ} {state next : σ} {count : Nat} {bytes : Bytes}

theorem readExact_zero : r.readExact state 0 = (.ok [], state) := by
  rw [readExact, if_pos rfl]

/-- A reader that gives nothing ends before an exact read does. -/
theorem readExact_of_read_nil (hpos : 0 < count) (h : r.read state count = (.ok [], next)) :
    r.readExact state count = (.error endedEarly, next) := by
  rw [readExact, if_neg (by omega)]
  split <;> simp_all

/-- A read that fails, and is not just interrupted, fails an exact read. -/
theorem readExact_of_read_error {e : IoError} (hpos : 0 < count)
    (h : r.read state count = (.error e, next)) (he : e.kind ≠ .interrupted) :
    r.readExact state count = (.error e, next) := by
  rw [readExact, if_neg (by omega)]
  split <;> simp_all

/-- An exact read goes on after the bytes that it got. -/
theorem readExact_of_read (hpos : 0 < bytes.length) (hle : bytes.length ≤ count)
    (h : r.read state count = (.ok bytes, next)) :
    r.readExact state count =
      ((r.readExact next (count - bytes.length)).1.map (bytes ++ ·),
        (r.readExact next (count - bytes.length)).2) := by
  rw [readExact, if_neg (by omega)]
  split <;> simp_all

end ReadExact

end Seekable

end VirtualFiles
