import VirtualFiles.Proofs.VirtualStream.Pieces
import VirtualFiles.VirtualStream.Cursor

/-!
# Streams whose reads may be cut in two

If reads of all sources of a stream may be cut in two, so may reads of the stream. Failures are
told apart by the segment that they name and by whether it ended early. So a stream has one
verdict on all its bytes, however they are asked for: a cursor that reads it in pieces of any size
comes to the same as one read of everything.

## Main definitions

* `ReadError.verdict` — the segment that a failure names, and whether it ended early
* `VirtualStream.verdict` — what a read comes to
* `VirtualStream.SplitsTo` — reads of the sources may be cut in two, as far as an address

## Main results

* `SplitsTo.verdict_split` — reads of the stream may be cut in two
* `SplitsTo.splits_toSource` — and so may those of the stream as a source
* `SplitsTo.drain` — reading in pieces comes to the same as reading at once
-/

namespace VirtualFiles

open Outcome

namespace ReadError

/-- The place in the table of the segment that could not be read. -/
def index : ReadError → Nat
  | .shortRead index _ _ _ => index
  | .backing index _ _ _ => index

/-- The segment that could not be read, and whether it ended early. -/
def verdict (e : ReadError) : Nat × Bool := (e.index, e.isShort)

@[simp] theorem verdict_ofSource (index : Nat) (t : Segment) (offset : Nat) (cause : IoError) :
    (ofSource index t offset cause).verdict = (index, cause.isEarlyEnd) := by
  have hindex : (ofSource index t offset cause).index = index := by
    unfold ofSource
    split <;> rfl
  rw [verdict, hindex, isShort_ofSource]

end ReadError

variable {fs : FileSystem} {t : Segment} {segments : List Segment}
variable {start middle stop limit first last index : Nat}

/-- The piece of a segment for a read that is cut in two is cut in two, or goes to one side. -/
theorem Segment.piece_split
    (hsplits : t.extent.start < limit →
      t.source.Splits fs (min t.extent.length (limit - t.extent.start)))
    (hstart : start ≤ middle) (hstop : middle ≤ stop) (hlimit : stop ≤ limit) :
    (t.piece fs start stop).mapError IoError.isEarlyEnd =
      append ((t.piece fs start middle).mapError IoError.isEarlyEnd)
        ((t.piece fs middle stop).mapError IoError.isEarlyEnd) := by
  by_cases hbefore : middle ≤ t.extent.start
  · have hnone : t.piece fs start middle = .ok [] := piece_eq_nil (by omega)
    have hsame : t.piece fs middle stop = t.piece fs start stop := piece_congr (by omega) rfl
    rw [hsame, hnone]
    exact nil_append.symm
  by_cases hafter : t.extent.stop ≤ middle
  · have hnone : t.piece fs middle stop = .ok [] := piece_eq_nil (by omega)
    have hsame : t.piece fs start middle = t.piece fs start stop := piece_congr rfl (by omega)
    rw [hsame, hnone]
    exact append_nil.symm
  · -- the read is cut within the segment
    have hmiddle : max middle t.extent.start = middle := by omega
    have hfirst : min middle t.extent.stop = middle := by omega
    obtain ⟨offset, hoffset⟩ := Nat.exists_eq_add_of_le (Nat.le_max_right start t.extent.start)
    obtain ⟨n, hn⟩ : ∃ n, middle = max start t.extent.start + n :=
      Nat.exists_eq_add_of_le (by omega)
    obtain ⟨m, hm⟩ : ∃ m, min stop t.extent.stop = middle + m :=
      Nat.exists_eq_add_of_le (by omega)
    have hin : offset + n + m ≤ min t.extent.length (limit - t.extent.start) := by
      rw [Extent.stop] at hm
      omega
    have hcut := hsplits (by omega) offset n m hin
    simp only [Source.outcome] at hcut
    rw [piece, piece, piece, hmiddle, hfirst, hm, show max start t.extent.start -
      t.extent.start = offset by omega, show middle + m - max start t.extent.start = n + m by omega,
      show middle - max start t.extent.start = n by omega, show middle - t.extent.start =
      offset + n by omega, Nat.add_sub_cancel_left]
    exact hcut

namespace VirtualStream

theorem mapError_verdict_piece (index offset : Nat) (t : Segment) (x : Except IoError Bytes) :
    (x.mapError (ReadError.ofSource index t offset)).mapError ReadError.verdict =
      (x.mapError IoError.isEarlyEnd).mapError (Prod.mk index) := by
  rw [mapError_mapError, mapError_mapError]
  exact congrArg x.mapError (funext fun e => ReadError.verdict_ofSource index t offset e)

/-- Gathering pieces may be cut in two. -/
theorem gather_split (tiles : Tiles first segments last)
    (hsplits : ∀ t ∈ segments, t.extent.start < limit →
      t.source.Splits fs (min t.extent.length (limit - t.extent.start)))
    (hstart : start ≤ middle) (hstop : middle ≤ stop) (hlimit : stop ≤ limit) :
    (gather fs start stop index segments).mapError ReadError.verdict =
      append ((gather fs start middle index segments).mapError ReadError.verdict)
        ((gather fs middle stop index segments).mapError ReadError.verdict) := by
  induction tiles generalizing index with
  | nil => rfl
  | @cons t rest first last starts nonempty covered follows ih =>
    obtain ⟨ht, hrest⟩ := List.forall_mem_cons.mp hsplits
    have hpiece := Segment.piece_split ht hstart hstop hlimit
    simp only [gather_cons, mapError_append, mapError_verdict_piece]
    rw [ih hrest, hpiece, mapError_append]
    by_cases hafter : t.extent.stop ≤ middle
    · -- the second part has nothing in common with this segment
      have hnone : t.piece fs middle stop = .ok [] := Segment.piece_eq_nil (by omega)
      rw [hnone]
      change append (append _ (.ok [])) _ = append _ (append (.ok []) _)
      rw [append_nil, nil_append, append_assoc]
    · -- the first part has nothing in common with the later segments
      have hnone : gather fs start middle (index + 1) rest = .ok [] :=
        gather_eq_nil fun u hu => by
          have hlater := (follows.bounds_of_mem hu).2.1
          omega
      rw [hnone]
      change append (append _ _) (append (.ok []) _) = append (append _ (.ok [])) _
      rw [append_nil, nil_append, append_assoc]

variable {s : VirtualStream} {offset n m : Nat}

/-- What a read comes to: its bytes, or the segment that could not be read. -/
def verdict (s : VirtualStream) (fs : FileSystem) (offset count : Nat) :
    Except (Nat × Bool) Bytes :=
  (s.readAt fs offset count).mapError ReadError.verdict

/-- What the stream as a source tells of a failure is a part of the verdict. -/
theorem outcome_toSource {count : Nat} (h : offset + count ≤ s.length) :
    s.toSource.outcome fs offset count = (s.verdict fs offset count).mapError Prod.snd := by
  rw [Source.outcome, readExactAt_toSource h, verdict, mapError_mapError, mapError_mapError,
    ReadError.isEarlyEnd_comp_toIoError]
  rfl

/-- Reads of the sources may be cut in two, as far as the addresses below `limit` show them. -/
def SplitsTo (s : VirtualStream) (fs : FileSystem) (limit : Nat) : Prop :=
  ∀ t ∈ s.segments.toList, t.extent.start < limit →
    t.source.Splits fs (min t.extent.length (limit - t.extent.start))

namespace SplitsTo

/-- Reads of the stream may be cut in two. -/
theorem verdict_split (h : s.SplitsTo fs limit) (hle : offset + n + m ≤ limit) :
    s.verdict fs offset (n + m) =
      append (s.verdict fs offset n) (s.verdict fs (offset + n) m) := by
  simp only [verdict, readAt_eq_gather]
  rw [← Nat.add_assoc]
  exact gather_split s.tiles h (Nat.le_add_right offset n) (Nat.le_add_right (offset + n) m) hle

/-- Reads of the stream as a source may be cut in two. -/
theorem splits_toSource (h : s.SplitsTo fs limit) (hlimit : limit ≤ s.length) :
    s.toSource.Splits fs limit := by
  intro offset n m hle
  rw [outcome_toSource (by omega), outcome_toSource (by omega), outcome_toSource (by omega),
    h.verdict_split hle, mapError_append]

/-- Reading a stream in pieces of any size comes to the same as reading it at once. -/
theorem drain {c : Cursor} {chunk : Nat} (h : c.stream.SplitsTo fs c.stream.length)
    (hpos : 0 < chunk) (hle : c.position ≤ c.stream.length) :
    (c.drain fs chunk).1.mapError ReadError.verdict =
      c.stream.verdict fs c.position (c.stream.length - c.position) := by
  -- the first piece, and what is left after it
  have hcut : ∀ c : Cursor, c.stream.SplitsTo fs c.stream.length → c.position ≤ c.stream.length →
      c.stream.verdict fs c.position (c.stream.length - c.position) =
        append ((c.stream.readAt fs c.position chunk).mapError ReadError.verdict)
          (c.stream.verdict fs (c.position + min chunk (c.stream.length - c.position))
            (c.stream.length - (c.position + min chunk (c.stream.length - c.position)))) := by
    intro c h hle
    rw [← readAt_min, ← verdict, ← h.verdict_split (by omega)]
    congr 1
    omega
  fun_induction Cursor.drain c fs chunk with
  | case1 c e hread =>
    rw [hcut c h hle, hread]
    rfl
  | case2 c hread =>
    have hlength := length_of_readAt_eq_ok hread
    rw [List.length_nil] at hlength
    rw [show c.stream.length - c.position = 0 by omega, verdict, readAt_eq_nil (.inr rfl)]
  | case3 c b bs hread rest last hdrain ih =>
    have hlength := length_of_readAt_eq_ok hread
    have hpiece : (b :: bs).length = min chunk (c.stream.length - c.position) := by omega
    have hrest := ih h (by dsimp only; omega)
    rw [hdrain] at hrest
    dsimp only at hrest ⊢
    rw [hcut c h hle, hread, ← hpiece, ← hrest]
    cases rest <;> rfl

end SplitsTo

end VirtualStream

end VirtualFiles
