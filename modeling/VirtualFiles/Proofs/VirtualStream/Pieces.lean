import VirtualFiles.Proofs.Source.Splitting
import VirtualFiles.Proofs.VirtualStream.Reading

/-!
# Reads as pieces of the segments

A read of a stream looks for the segment that holds its first address and goes on from there
until it has enough. Which bytes it gives can be said without the search: every segment of the
table is asked for what the addresses of the read have in common with its extent, which is
nothing for most of them. In this form a read can be cut along the table and along the addresses.

A read fails in one of two ways: a source ended early, or it failed by itself.

## Main definitions

* `ReadError.isShort` — whether it was an early end
* `Segment.piece` — what a segment contributes to a read
* `VirtualStream.gather` — the pieces of all segments
* `VirtualStream.FailsFirst` — the first segment of a table that does not deliver its piece

## Main results

* `readAt_eq_gather` — a read gathers the pieces of all segments
* `gather_append` — the pieces of a table are those of its first part and then those of its rest
* `readAt_eq_ok_iff`, `readAt_eq_error_iff` — a read gives the pieces if all segments deliver them,
  and otherwise reports the first segment that does not
* `length_of_readAt_eq_ok` — a read gives everything up to the end of the stream
-/

namespace VirtualFiles

namespace ReadError

/-- Did a source end early, rather than fail by itself? -/
def isShort : ReadError → Bool
  | .shortRead .. => true
  | .backing .. => false

@[simp] theorem isShort_ofSource (index : Nat) (t : Segment) (offset : Nat) (cause : IoError) :
    (ofSource index t offset cause).isShort = cause.isEarlyEnd := by
  unfold ofSource IoError.isEarlyEnd
  split
  · next h => rw [h]; rfl
  · next h => exact (beq_eq_false_iff_ne.mpr h).symm

/-- A failure that passes through a source keeps saying whether it was an early end. -/
@[simp] theorem isEarlyEnd_toIoError (e : ReadError) : e.toIoError.isEarlyEnd = e.isShort := by
  cases e <;> rfl

theorem isEarlyEnd_comp_toIoError : IoError.isEarlyEnd ∘ toIoError = isShort :=
  funext isEarlyEnd_toIoError

end ReadError

open Outcome

variable {t : Segment} {fs fs' : FileSystem} {start start' stop stop' : Nat}

namespace Segment

/-- What the addresses from `start` to `stop` have in common with the extent of the segment, read
from its source. -/
def piece (t : Segment) (fs : FileSystem) (start stop : Nat) : Except IoError Bytes :=
  t.source.readExactAt fs (max start t.extent.start - t.extent.start)
    (min stop t.extent.stop - max start t.extent.start)

/-- Only what the addresses have in common with the extent matters. -/
theorem piece_congr (hstart : max start t.extent.start = max start' t.extent.start)
    (hstop : min stop t.extent.stop = min stop' t.extent.stop) :
    t.piece fs start stop = t.piece fs start' stop' := by
  rw [piece, piece, hstart, hstop]

/-- A read of all addresses of a segment reads its whole extent. -/
theorem piece_of_le (hstart : start ≤ t.extent.start) (hstop : t.extent.stop ≤ stop) :
    t.piece fs start stop = t.source.readExactAt fs 0 t.extent.length := by
  rw [piece, Nat.max_eq_right hstart, Nat.min_eq_right hstop, Nat.sub_self, Extent.stop,
    Nat.add_sub_cancel_left]

theorem piece_eq_nil (h : min stop t.extent.stop ≤ max start t.extent.start) :
    t.piece fs start stop = .ok [] := by
  rw [piece, Nat.sub_eq_zero_of_le h, Source.readExactAt_zero]

end Segment

namespace VirtualStream

variable {segments before after rest : List Segment} {index first last position remaining : Nat}
variable {bytes : Bytes}

/-- The pieces of all segments one after the other. The first segment that cannot deliver its
piece ends this; `index` is the place of the first segment in the table. -/
def gather (fs : FileSystem) (start stop index : Nat) : List Segment → Except ReadError Bytes
  | [] => .ok []
  | t :: rest =>
    append
      ((t.piece fs start stop).mapError
        (.ofSource index t (max start t.extent.start - t.extent.start)))
      (gather fs start stop (index + 1) rest)

theorem gather_cons : gather fs start stop index (t :: rest) =
    append
      ((t.piece fs start stop).mapError
        (.ofSource index t (max start t.extent.start - t.extent.start)))
      (gather fs start stop (index + 1) rest) := rfl

/-- A segment that has nothing in common with the addresses contributes nothing. -/
theorem gather_cons_of_apart (h : min stop t.extent.stop ≤ max start t.extent.start) :
    gather fs start stop index (t :: rest) = gather fs start stop (index + 1) rest := by
  rw [gather_cons, Segment.piece_eq_nil h]
  exact nil_append

theorem gather_eq_nil
    (h : ∀ t ∈ segments, min stop t.extent.stop ≤ max start t.extent.start) :
    gather fs start stop index segments = .ok [] := by
  induction segments generalizing index with
  | nil => rfl
  | cons t rest ih =>
    obtain ⟨ht, hrest⟩ := List.forall_mem_cons.mp h
    rw [gather_cons_of_apart ht, ih hrest]

/-- The pieces of a table are those of its first part, and then those of its rest. -/
theorem gather_append : gather fs start stop index (before ++ after) =
    append (gather fs start stop index before)
      (gather fs start stop (index + before.length) after) := by
  induction before generalizing index with
  | nil => exact nil_append.symm
  | cons t rest ih =>
    rw [List.cons_append, gather_cons, gather_cons, ih, append_assoc, List.length_cons,
      Nat.add_assoc, Nat.add_comm 1]

/-- Reads with the same pieces gather the same bytes. -/
theorem gather_congr (h : ∀ t ∈ segments, max start t.extent.start = max start' t.extent.start ∧
      t.piece fs start stop = t.piece fs' start' stop') :
    gather fs start stop index segments = gather fs' start' stop' index segments := by
  induction segments generalizing index with
  | nil => rfl
  | cons t rest ih =>
    obtain ⟨⟨hstart, hpiece⟩, hrest⟩ := List.forall_mem_cons.mp h
    rw [gather_cons, gather_cons, hstart, hpiece, ih hrest]

/-- The segments `before` deliver their pieces of the addresses from `start` to `stop`, and the
segment `t` that comes next in the table does not. -/
structure FailsFirst (segments : List Segment) (fs : FileSystem) (start stop : Nat)
    (before : List Segment) (t : Segment) (cause : IoError) : Prop where
  table : ∃ after, segments = before ++ t :: after
  delivered : ∀ u ∈ before, ∃ piece, u.piece fs start stop = .ok piece
  failed : t.piece fs start stop = .error cause

/-- Bytes are gathered if all segments deliver their pieces. -/
theorem gather_eq_ok_iff : gather fs start stop index segments = .ok bytes ↔
    ∃ pieces, List.Forall₂ (fun t piece => t.piece fs start stop = .ok piece) segments pieces ∧
      pieces.flatten = bytes := by
  induction segments generalizing index bytes with
  | nil =>
    simp only [gather, List.forall₂_nil_left_iff, exists_eq_left, List.flatten_nil,
      Except.ok.injEq]
  | cons t rest ih =>
    rw [gather_cons, append_eq_ok_iff]
    constructor
    · rintro ⟨piece, more, hpiece, hmore, rfl⟩
      obtain ⟨pieces, hpieces, rfl⟩ := ih.mp hmore
      exact ⟨piece :: pieces, .cons (mapError_eq_ok_iff.mp hpiece) hpieces, rfl⟩
    · rintro ⟨pieces, hpieces, rfl⟩
      obtain ⟨piece, more, hpiece, hmore, rfl⟩ := List.forall₂_cons_left_iff.mp hpieces
      exact ⟨piece, more.flatten, mapError_eq_ok_iff.mpr hpiece, ih.mpr ⟨more, hmore, rfl⟩, rfl⟩

theorem not_failsFirst_nil {cause : IoError} : ¬ FailsFirst [] fs start stop before t cause := by
  rintro ⟨⟨after, htable⟩, -, -⟩
  simp at htable

/-- Either the first segment fails, or it delivers its piece and a later one fails. -/
theorem failsFirst_cons_iff {u : Segment} {cause : IoError} :
    FailsFirst (u :: rest) fs start stop before t cause ↔
      (before = [] ∧ t = u ∧ u.piece fs start stop = .error cause) ∨
      ∃ earlier, before = u :: earlier ∧ (∃ piece, u.piece fs start stop = .ok piece) ∧
        FailsFirst rest fs start stop earlier t cause := by
  constructor
  · rintro ⟨⟨after, htable⟩, hdelivered, hfailed⟩
    cases before with
    | nil =>
      cases htable
      exact .inl ⟨rfl, rfl, hfailed⟩
    | cons _ earlier =>
      cases htable
      obtain ⟨hfirst, hearlier⟩ := List.forall_mem_cons.mp hdelivered
      exact .inr ⟨earlier, rfl, hfirst, ⟨after, rfl⟩, hearlier, hfailed⟩
  · rintro (⟨rfl, rfl, hfailed⟩ | ⟨earlier, rfl, hfirst, ⟨after, rfl⟩, hearlier, hfailed⟩)
    · exact ⟨⟨rest, rfl⟩, List.forall_mem_nil _, hfailed⟩
    · exact ⟨⟨after, rfl⟩, List.forall_mem_cons.mpr ⟨hfirst, hearlier⟩, hfailed⟩

/-- Nothing is gathered if a segment does not deliver its piece, and the first one is reported. -/
theorem gather_eq_error_iff {e : ReadError} : gather fs start stop index segments = .error e ↔
    ∃ before t cause, FailsFirst segments fs start stop before t cause ∧
      e = .ofSource (index + before.length) t (max start t.extent.start - t.extent.start)
        cause := by
  induction segments generalizing index with
  | nil => simp only [gather, reduceCtorEq, not_failsFirst_nil, false_and, exists_false]
  | cons u rest ih =>
    rw [gather_cons, append_eq_error_iff, mapError_eq_error_iff]
    constructor
    · rintro (⟨cause, hfailed, rfl⟩ | ⟨piece, hpiece, hrest⟩)
      · exact ⟨[], u, cause, failsFirst_cons_iff.mpr (.inl ⟨rfl, rfl, hfailed⟩), rfl⟩
      · obtain ⟨earlier, t, cause, hfails, rfl⟩ := ih.mp hrest
        refine ⟨u :: earlier, t, cause,
          failsFirst_cons_iff.mpr (.inr ⟨earlier, rfl, ?_, hfails⟩), ?_⟩
        · exact ⟨piece, mapError_eq_ok_iff.mp hpiece⟩
        · rw [List.length_cons, Nat.add_assoc, Nat.add_comm 1]
    · rintro ⟨before, t, cause, hfails, rfl⟩
      obtain ⟨rfl, rfl, hfailed⟩ | ⟨earlier, rfl, ⟨piece, hpiece⟩, hlater⟩ :=
        failsFirst_cons_iff.mp hfails
      · exact .inl ⟨cause, hfailed, rfl⟩
      · refine .inr ⟨piece, mapError_eq_ok_iff.mpr hpiece, ih.mpr ⟨earlier, t, cause, hlater, ?_⟩⟩
        rw [List.length_cons, Nat.add_assoc, Nat.add_comm 1]

/-- Pieces that are all delivered are as long as what the addresses have in common with the
table. -/
theorem length_of_gather (tiles : Tiles first segments last)
    (h : gather fs start stop index segments = .ok bytes) :
    bytes.length = min stop last - max start first := by
  induction tiles generalizing index bytes with
  | nil =>
    cases h
    rw [List.length_nil]
    omega
  | @cons t rest first last starts nonempty covered follows ih =>
    rw [gather_cons, append_eq_ok_iff] at h
    obtain ⟨piece, more, hpiece, hmore, rfl⟩ := h
    have hlast := follows.le
    have hwanted := Source.length_of_readExactAt (mapError_eq_ok_iff.mp hpiece)
    rw [List.length_append, ih hmore, hwanted]
    simp only [Extent.stop] at *
    omega

/-- The loop over the segments gathers their pieces. -/
theorem readFrom_eq_gather (tiles : Tiles first segments last) (hle : first ≤ position)
    (hlt : ∀ t ∈ segments.head?, position < t.extent.stop) :
    readFrom fs index segments position remaining =
      gather fs position (position + remaining) index segments := by
  induction tiles generalizing index position remaining with
  | nil => rfl
  | @cons t rest first last starts nonempty covered follows ih =>
    have hin : position < t.extent.stop := hlt t rfl
    have hstart : max position t.extent.start = position := by omega
    have hwanted : min (t.extent.length - (position - t.extent.start)) remaining =
        min (position + remaining) t.extent.stop - position := by
      simp only [Extent.stop] at *
      omega
    simp only [readFrom, gather_cons, Segment.piece, hstart, hwanted]
    cases t.source.readExactAt fs (position - t.extent.start)
        (min (position + remaining) t.extent.stop - position) with
    | error e => rfl
    | ok bytes =>
      have hrest : ∀ u ∈ rest, t.extent.stop ≤ u.extent.start := fun u hu =>
        (follows.bounds_of_mem hu).2.1
      by_cases hall : min (position + remaining) t.extent.stop - position = remaining
      · -- the read ends in this segment, and the later ones begin after it
        have hnothing : gather fs position (position + remaining) (index + 1) rest = .ok [] :=
          gather_eq_nil fun u hu => by
            have := hrest u hu
            omega
        dsimp only
        rw [if_pos hall, hnothing]
        exact append_nil.symm
      · have hnext : position + (min (position + remaining) t.extent.stop - position) =
            t.extent.stop := by omega
        have hleft : t.extent.stop + (remaining -
            (min (position + remaining) t.extent.stop - position)) = position + remaining := by
          omega
        have hsame : ∀ u ∈ rest, max t.extent.stop u.extent.start =
            max position u.extent.start := fun u hu => by
          have := hrest u hu
          omega
        dsimp only
        rw [if_neg hall, hnext, ih (Nat.le_refl _) fun u hu => follows.lt_stop_of_mem_head? hu,
          hleft, gather_congr fun u hu => ⟨hsame u hu, Segment.piece_congr (hsame u hu) rfl⟩]
        rfl

variable {s : VirtualStream} {offset count : Nat}

/-- A read gathers the pieces of all segments. -/
theorem readAt_eq_gather (s : VirtualStream) (fs : FileSystem) (offset count : Nat) :
    s.readAt fs offset count = gather fs offset (offset + count) 0 s.segments.toList := by
  by_cases hnil : s.length ≤ offset ∨ count = 0
  · rw [readAt_eq_nil hnil, gather_eq_nil fun t ht => ?_]
    have hbounds := (s.tiles.bounds_of_mem ht).2.2
    omega
  · have hin : offset < s.length := by omega
    obtain ⟨before, owner, after, htable, hle, hlt, -⟩ := s.exists_segmentIndex? hin
    obtain ⟨hbefore, hrest⟩ := tiles_of_table htable
    have hnothing : gather fs offset (offset + count) 0 before = .ok [] :=
      gather_eq_nil fun t ht => by
        have hbounds := (hbefore.bounds_of_mem ht).2.2
        omega
    rw [readAt_eq_readFrom htable hle hlt (by omega),
      readFrom_eq_gather hrest hle fun t ht => by cases ht; exact hlt, htable, gather_append,
      hnothing, Nat.zero_add]
    exact nil_append.symm

/-- A read succeeds if all segments deliver their pieces, and these are what it gives. -/
theorem readAt_eq_ok_iff : s.readAt fs offset count = .ok bytes ↔
    ∃ pieces, List.Forall₂ (fun t piece => t.piece fs offset (offset + count) = .ok piece)
      s.segments.toList pieces ∧ pieces.flatten = bytes := by
  rw [readAt_eq_gather, gather_eq_ok_iff]

/-- A read fails if a segment does not deliver its piece, and the first one is reported. -/
theorem readAt_eq_error_iff {e : ReadError} : s.readAt fs offset count = .error e ↔
    ∃ before t cause, FailsFirst s.segments.toList fs offset (offset + count) before t cause ∧
      e = .ofSource before.length t (max offset t.extent.start - t.extent.start) cause := by
  simp only [readAt_eq_gather, gather_eq_error_iff, Nat.zero_add]

/-- A read may be cut at the end of the stream. -/
theorem readAt_min (s : VirtualStream) (fs : FileSystem) (offset count : Nat) :
    s.readAt fs offset (min count (s.length - offset)) = s.readAt fs offset count := by
  rw [readAt_eq_gather, readAt_eq_gather]
  refine gather_congr fun t ht => ⟨rfl, Segment.piece_congr rfl ?_⟩
  have hbounds := (s.tiles.bounds_of_mem ht).2.2
  omega

/-- A read that succeeds gives everything asked for up to the end of the stream. -/
theorem length_of_readAt_eq_ok (h : s.readAt fs offset count = .ok bytes) :
    bytes.length = min (offset + count) s.length - offset := by
  rw [readAt_eq_gather] at h
  rw [length_of_gather s.tiles h, Nat.max_eq_left (Nat.zero_le offset)]

/-- An exact read of a stream as a source is one read of the stream, as long as it stays below the
length of the stream. -/
theorem readExactAt_toSource (h : offset + count ≤ s.length) :
    s.toSource.readExactAt fs offset count =
      (s.readAt fs offset count).mapError ReadError.toIoError := by
  have hsource : s.toSource.readAt fs offset count =
      (s.readAt fs offset count).mapError ReadError.toIoError := rfl
  cases hread : s.readAt fs offset count with
  | error e =>
    have hpos : count ≠ 0 := by
      rintro rfl
      rw [readAt_eq_nil (.inr rfl)] at hread
      cases hread
    rw [hread] at hsource
    exact Source.readExactAt_of_readAt_error hpos hsource
  | ok bytes =>
    have hlength : bytes.length = count := by
      rw [length_of_readAt_eq_ok hread]
      omega
    rw [hread] at hsource
    exact Source.readExactAt_of_readAt hsource hlength

end VirtualStream

end VirtualFiles
